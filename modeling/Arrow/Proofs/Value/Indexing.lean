import Arrow.Proofs.Value.ExactArithmetic
import Arrow.Value.Collection
import Arrow.Value.Text

/-!
# Indexing and length

An array or a text consists of items (`Value.items?`): its elements, or a text for each of its
characters. Its length counts them, however it is asked for. Indexing selects from the items,
counting from zero, and is out of bounds everywhere else (`Value.indexing_matches_length`).
-/

namespace Arrow

namespace Integer

/-- A count in range stays as it is. -/
theorem toInt_ofLength {n : ℕ} (h : (n : ℤ) ≤ Int64.maxValue.toInt) : (ofLength n).toInt = n := by
  have hlow : Int64.minValue.toInt ≤ (n : ℤ) := Int.le_trans (by decide) (Int.natCast_nonneg n)
  unfold ofLength
  cases hn : ofInt? n with
  | none =>
    unfold ofInt? at hn
    rw [if_pos ⟨hlow, h⟩] at hn
    exact nomatch hn
  | some m => exact ofInt?_eq_some_iff.1 hn

theorem toIndex?_eq_some_iff {i : Integer} {length k : ℕ} :
    i.toIndex? length = some k ↔ i.toInt = k ∧ k < length := by
  unfold toIndex?
  split_ifs with h
  · rw [Option.some_inj]
    omega
  · refine iff_of_false nofun ?_
    omega

end Integer

namespace Value

/-- The items of an array or a text, in order. -/
def items? : Value → Option (List Value)
  | array elements => some elements
  | text content => some (content.toList.map fun c => text (String.ofList [c]))
  | _ => none

/-! ## Selecting -/

section Select

variable {α β : Type} {things : List α} {thing : α} {i : Integer} {p : Position}

theorem select_eq_ok_iff :
    select things i p = .ok thing ↔ ∃ k : ℕ, i.toInt = k ∧ things[k]? = some thing := by
  have hbind : (i.toIndex? things.length).bind (things[·]?) = some thing ↔
      ∃ k : ℕ, i.toInt = k ∧ things[k]? = some thing := by
    rw [Option.bind_eq_some_iff]
    constructor
    · rintro ⟨k, hk, hthing⟩
      exact ⟨k, (Integer.toIndex?_eq_some_iff.1 hk).1, hthing⟩
    · rintro ⟨k, hk, hthing⟩
      have hlt : k < things.length := (List.getElem?_eq_some_iff.1 hthing).1
      exact ⟨k, Integer.toIndex?_eq_some_iff.2 ⟨hk, hlt⟩, hthing⟩
  rw [← hbind]
  unfold select
  split
  case h_1 found heq => rw [heq, Except.ok.injEq, Option.some_inj]
  case h_2 heq => rw [heq]; exact iff_of_false nofun nofun

theorem select_of_outside (h : ¬ (0 ≤ i.toInt ∧ i.toInt < things.length)) :
    select things i p = .error (.indexOutOfBounds i things.length p) := by
  unfold select Integer.toIndex?
  rw [if_neg h]
  rfl

theorem select_isOk_iff :
    (∃ thing, select things i p = .ok thing) ↔ 0 ≤ i.toInt ∧ i.toInt < things.length := by
  simp only [select_eq_ok_iff]
  constructor
  · rintro ⟨thing, k, hk, hthing⟩
    have hlt : k < things.length := (List.getElem?_eq_some_iff.1 hthing).1
    omega
  · rintro ⟨hlow, hhigh⟩
    have hlt : i.toInt.toNat < things.length := by omega
    exact ⟨things[i.toInt.toNat], i.toInt.toNat, (Int.toNat_of_nonneg hlow).symm,
      List.getElem?_eq_getElem hlt⟩

theorem select_map (f : α → β) : select (things.map f) i p = (select things i p).map f := by
  unfold select
  rw [List.length_map]
  cases hk : i.toIndex? things.length with
  | none => rfl
  | some k =>
    have hlt : k < things.length := (Integer.toIndex?_eq_some_iff.1 hk).2
    simp [hlt, Except.map]

end Select

/-! ## Items -/

variable {t : Value} {items : List Value}

theorem index_of_items? (h : t.items? = some items) (i : Integer) (p : Position) :
    t.index (integer i) p = select items i p := by
  cases t with
  | array elements =>
    cases h
    rfl
  | text content =>
    cases h
    exact (select_map _).symm
  | _ => exact nomatch h

theorem len_of_items? (h : t.items? = some items) (p : Position) :
    t.len p = .ok (integer (Integer.ofLength items.length)) := by
  cases t with
  | array elements =>
    cases h
    rfl
  | text content =>
    cases h
    rw [List.length_map]
    rfl
  | _ => exact nomatch h

/-- The property of an array or a text is its length. -/
theorem member_length_of_items? (h : t.items? = some items) (p : Position) :
    t.member "length" p = t.len p := by
  cases t with
  | array elements => rfl
  | text content => rfl
  | _ => exact nomatch h

theorem indexAll_of_items? (h : t.items? = some items)
    (hfits : (items.length : ℤ) ≤ Int64.maxValue.toInt) (p : Position) :
    (List.range items.length).map (fun k => t.index (integer (Integer.ofLength k)) p) =
      items.map .ok := by
  refine List.ext_getElem (by simp) fun k hk _ => ?_
  have hlt : k < items.length := by simpa using hk
  rw [List.getElem_map, List.getElem_map, List.getElem_range, index_of_items? h, select_eq_ok_iff]
  exact ⟨k, Integer.toInt_ofLength (by omega), List.getElem?_eq_getElem hlt⟩

theorem join_items_text (content : String) :
    String.join ((content.toList.map fun c => text (String.ofList [c])).map render) = content := by
  rw [← String.toList_inj, String.toList_join, List.map_map, List.flatMap_map]
  simp [render]

theorem mem_items_of_index (h : t.items? = some items) {i : Integer} {item : Value} {p : Position}
    (hitem : t.index (integer i) p = .ok item) : item ∈ items := by
  rw [index_of_items? h] at hitem
  obtain ⟨k, -, hk⟩ := select_eq_ok_iff.1 hitem
  exact List.mem_of_getElem? hk

/--
The length of an array or a text whose length is in range is the number of its items, asked for in
either way. Indexing succeeds exactly from zero on below the length, and is otherwise out of bounds;
it gives the items in order, so that the characters of a text make up the text. An item of a text is
a text of length one, which is its own item at zero.
-/
theorem indexing_matches_length (h : t.items? = some items)
    (hfits : (items.length : ℤ) ≤ Int64.maxValue.toInt) (p : Position) :
    (∃ n : Integer, n.toInt = items.length ∧ t.len p = .ok (integer n) ∧
      t.member "length" p = .ok (integer n) ∧
      ∀ i : Integer,
        ((∃ item, t.index (integer i) p = .ok item) ↔ 0 ≤ i.toInt ∧ i.toInt < n.toInt) ∧
        (¬ (0 ≤ i.toInt ∧ i.toInt < n.toInt) →
          t.index (integer i) p = .error (.indexOutOfBounds i items.length p))) ∧
    (List.range items.length).map (fun k => t.index (integer (Integer.ofLength k)) p) =
      items.map .ok ∧
    ∀ content, t = text content →
      String.join (items.map render) = content ∧
      ∀ i item, t.index (integer i) p = .ok item →
        item.kind = .str ∧ item.len p = .ok (integer 1) ∧ item.index (integer 0) p = .ok item := by
  have hlen : (Integer.ofLength items.length).toInt = items.length := Integer.toInt_ofLength hfits
  refine ⟨⟨Integer.ofLength items.length, hlen, len_of_items? h p,
    (member_length_of_items? h p).trans (len_of_items? h p), fun i => ?_⟩,
    indexAll_of_items? h hfits p, ?_⟩
  · rw [hlen, index_of_items? h]
    exact ⟨select_isOk_iff, select_of_outside⟩
  · rintro content rfl
    cases h
    refine ⟨join_items_text content, fun i item hitem => ?_⟩
    obtain ⟨c, -, rfl⟩ := List.mem_map.1 (mem_items_of_index rfl hitem)
    have hitems : (text (String.ofList [c])).items? = some [text (String.ofList [c])] := by
      simp [items?]
    refine ⟨rfl, len_of_items? hitems p, ?_⟩
    rw [index_of_items? hitems, select_eq_ok_iff]
    exact ⟨0, rfl, rfl⟩

/-- A text of five characters and six bytes, the third of which has two. -/
theorem indexing_matches_length_of_accent :
    let t : Value := text "naïve"
    let items : List Value := [text "n", text "a", text "ï", text "v", text "e"]
    t.items? = some items ∧ (items.length : ℤ) ≤ Int64.maxValue.toInt ∧
    t.len .start = .ok (integer 5) ∧ t.member "length" .start = .ok (integer 5) ∧
    t.index (integer 2) .start = .ok (text "ï") ∧
    t.index (integer 5) .start = .error (.indexOutOfBounds 5 5 .start) ∧
    (text "ï").index (integer 0) .start = .ok (text "ï") := by
  intro t items
  have hitems : t.items? = some items := rfl
  have hfits : (items.length : ℤ) ≤ Int64.maxValue.toInt := by decide
  obtain ⟨⟨n, hn, hlen, hmember, hindex⟩, hall, htext⟩ :=
    indexing_matches_length hitems hfits .start
  obtain rfl : n = 5 := Int64.toInt_inj.1 hn
  have hthird : t.index (integer 2) .start = .ok (text "ï") :=
    Option.some.inj (congrArg (·[2]?) hall)
  obtain ⟨-, -, hself⟩ := (htext "naïve" rfl).2 2 _ hthird
  exact ⟨hitems, hfits, hlen, hmember, hthird, (hindex 5).2 (by decide), hself⟩

end Value

end Arrow
