import Arrow.Dialogue.Stream
import Arrow.Evaluation.Program
import Mathlib.Data.List.DropRight
import Mathlib.Data.List.SplitBy

/-!
# Streams and prepared lines

A stream whose bytes encode a text answers like a transcript in which the lines of the text are
prepared (`Stream.simulates_offers`): the byte of a newline occurs only as that character, so
cutting bytes and cutting characters are the same. A dialogue cannot tell the two consoles apart
(`Console.Simulates.conduct`), and so neither can the run of a source text (`runSource_ofText`).
-/

namespace Arrow

/-! ## Consoles that simulate each other -/

/-- From related consoles both get the same answers, and stay related. -/
structure Console.Simulates {σ τ : Type} [Console σ] [Console τ] (R : σ → τ → Prop) : Prop where
  write : ∀ text {s t}, R s t → (Console.write text s).1 = (Console.write text t).1 ∧
    R (Console.write text s).2 (Console.write text t).2
  readLine : ∀ {s t}, R s t → (Console.readLine s).1 = (Console.readLine t).1 ∧
    R (Console.readLine s).2 (Console.readLine t).2

theorem Console.Simulates.conduct {σ τ α : Type} [Console σ] [Console τ] {R : σ → τ → Prop}
    (h : Console.Simulates R) {s : σ} {t : τ} (hst : R s t) (d : Dialogue α) :
    (d.conduct s).1 = (d.conduct t).1 ∧ R (d.conduct s).2 (d.conduct t).2 := by
  induction d generalizing s t with
  | done value => exact ⟨rfl, hst⟩
  | write text caller next ih =>
    obtain ⟨hanswer, hafter⟩ := h.write text hst
    simp only [Dialogue.conduct]
    rw [hanswer]
    exact ih _ hafter
  | read caller next ih =>
    obtain ⟨hanswer, hafter⟩ := h.readLine hst
    simp only [Dialogue.conduct]
    rw [hanswer]
    exact ih _ hafter

namespace Stream

/-! ## Bytes of a text -/

/-- The bytes that encode a text. -/
def encode (text : List Char) : List UInt8 :=
  text.flatMap String.utf8EncodeChar

theorem encode_append (front rest : List Char) :
    encode (front ++ rest) = encode front ++ encode rest :=
  List.flatMap_append

theorem encode_ne_nil {text : List Char} (h : text ≠ []) : encode text ≠ [] := by
  obtain ⟨c, rest, rfl⟩ := List.exists_cons_of_ne_nil h
  exact List.append_ne_nil_of_left_ne_nil String.utf8EncodeChar_ne_nil _

theorem newline_notMem_utf8EncodeChar {c : Char} (h : c ≠ '\n') :
    newline ∉ String.utf8EncodeChar c := by
  have hcode : c.val.toNat ≠ 10 := fun hcode => h (Char.ext (UInt32.toNat_inj.1 hcode))
  have hbyte (n : Nat) (hn : n % 256 ≠ 10) : newline ≠ UInt8.ofNat n := by
    intro heq
    exact hn (congrArg UInt8.toNat heq).symm
  unfold String.utf8EncodeChar
  dsimp only
  -- A single byte is the code of the character; the bytes of longer encodings are 128 and above.
  split
  · simp only [List.mem_singleton]
    exact hbyte _ (by omega)
  · split
    · simp only [List.mem_cons, List.not_mem_nil, or_false, not_or]
      exact ⟨hbyte _ (by omega), hbyte _ (by omega)⟩
    · split
      · simp only [List.mem_cons, List.not_mem_nil, or_false, not_or]
        exact ⟨hbyte _ (by omega), hbyte _ (by omega), hbyte _ (by omega)⟩
      · simp only [List.mem_cons, List.not_mem_nil, or_false, not_or]
        exact ⟨hbyte _ (by omega), hbyte _ (by omega), hbyte _ (by omega), hbyte _ (by omega)⟩

theorem newline_notMem_encode {text : List Char} (h : '\n' ∉ text) : newline ∉ encode text := by
  intro hmem
  obtain ⟨c, hc, hnewline⟩ := List.mem_flatMap.1 hmem
  refine newline_notMem_utf8EncodeChar ?_ hnewline
  rintro rfl
  exact h hc

theorem decodeLine_encode (line : List Char) :
    decodeLine (encode line) = .ok (some (trimLine (String.ofList line))) := by
  have hbytes : (⟨(encode line).toArray⟩ : ByteArray) = line.utf8Encode :=
    ByteArray.ext List.data_toByteArray.symm
  unfold decodeLine String.fromUTF8?
  rw [hbytes, dif_pos ByteArray.isValidUTF8_utf8Encode]
  rfl

theorem splitLine_append {front : List UInt8} (h : newline ∉ front) (rest : List UInt8) :
    splitLine (front ++ rest) = (front ++ (splitLine rest).1, (splitLine rest).2) := by
  induction front with
  | nil => rfl
  | cons byte front ih =>
    obtain ⟨hbyte, hfront⟩ := List.ne_and_not_mem_of_not_mem_cons h
    rw [List.cons_append, splitLine, if_neg (Ne.symm hbyte), ih hfront]
    rfl

/-! ## Lines of a text -/

/-- A text is cut behind each newline. -/
def pieces (text : List Char) : List (List Char) :=
  text.splitBy fun c _ => c ≠ '\n'

/-- The lines of a text: its pieces without the newlines and carriage returns at their ends. -/
def linesOf (text : List Char) : List String :=
  (pieces text).map fun piece => String.ofList (piece.rdropWhile fun c => c = '\n' || c = '\r')

/-- A first piece ends with a newline or with the text. -/
theorem exists_firstPiece {text : List Char} (h : text ≠ []) :
    ∃ front c rest, text = front ++ c :: rest ∧ '\n' ∉ front ∧ (c = '\n' ∨ rest = []) := by
  by_cases hnewline : '\n' ∈ text
  · obtain ⟨front, rest, rfl, hfront⟩ := List.eq_append_cons_of_mem hnewline
    exact ⟨front, '\n', rest, rfl, hfront, .inl rfl⟩
  · exact ⟨text.dropLast, text.getLast h, [], (List.dropLast_append_getLast h).symm,
      fun hmem => hnewline (List.dropLast_subset _ hmem), .inr rfl⟩

variable {front : List Char} {c : Char} {rest : List Char}

theorem isChain_firstPiece (hfront : '\n' ∉ front) (c : Char) :
    (front ++ [c]).IsChain fun a _ => decide (a ≠ '\n') := by
  induction front with
  | nil => exact List.isChain_singleton _
  | cons first front ih =>
    obtain ⟨hfirst, hfront⟩ := List.ne_and_not_mem_of_not_mem_cons hfront
    refine List.isChain_cons.2 ⟨fun _ _ => decide_eq_true (Ne.symm hfirst), ih hfront⟩

theorem pieces_append (hfront : '\n' ∉ front) (hc : c = '\n' ∨ rest = []) :
    pieces (front ++ c :: rest) = (front ++ [c]) :: pieces rest := by
  have hpiece : (front ++ [c]).splitBy (fun a _ => decide (a ≠ '\n')) = [front ++ [c]] :=
    List.splitBy_of_isChain (List.concat_ne_nil c front) (isChain_firstPiece hfront c)
  unfold pieces
  rw [List.append_cons, List.splitBy_append, hpiece]
  · rfl
  · intro last hlast next hnext
    rw [List.getLast?_concat, Option.mem_some_iff] at hlast
    subst hlast
    rcases hc with rfl | rfl
    · rfl
    · exact nomatch hnext

theorem splitLine_encode (hfront : '\n' ∉ front) (hc : c = '\n' ∨ rest = []) :
    splitLine (encode (front ++ c :: rest)) = (encode (front ++ [c]), encode rest) := by
  by_cases hnewline : c = '\n'
  · subst hnewline
    rw [encode_append, splitLine_append (newline_notMem_encode hfront), encode_append]
    rfl
  · obtain rfl := hc.resolve_left hnewline
    have hpiece : '\n' ∉ front ++ [c] := by
      simp only [List.mem_append, List.mem_singleton, not_or]
      exact ⟨hfront, Ne.symm hnewline⟩
    have hsplit := splitLine_append (newline_notMem_encode hpiece) []
    rw [List.append_nil] at hsplit
    rw [hsplit]
    exact congrArg (·, encode []) (List.append_nil _)

/-! ## A stream beside its lines -/

/-- The stream of the bytes of a text. -/
def ofText (input : String) : Stream :=
  ⟨input.toUTF8.data.toList, ""⟩

/-- What is still to be read is a text, as bytes and as lines, and the same has been written. -/
def Offers (stream : Stream) (transcript : Transcript) : Prop :=
  (∃ text, stream.input = encode text ∧ transcript.lines = linesOf text) ∧
    stream.output = transcript.output

theorem offers_ofText (input : String) : (ofText input).Offers ⟨linesOf input.toList, ""⟩ := by
  refine ⟨⟨input.toList, ?_, rfl⟩, rfl⟩
  unfold ofText
  rw [String.toUTF8_eq_toByteArray, ← String.utf8Encode_toList]
  exact List.toList_data_toByteArray

theorem readLine_encode (hfront : '\n' ∉ front) (hc : c = '\n' ∨ rest = []) (output : String) :
    Console.readLine (⟨encode (front ++ c :: rest), output⟩ : Stream) =
      (.ok (some (trimLine (String.ofList (front ++ [c])))), ⟨encode rest, output⟩) := by
  have hsplit := splitLine_encode hfront hc
  obtain ⟨byte, bytes, hbytes⟩ :=
    List.exists_cons_of_ne_nil (encode_ne_nil (List.concat_ne_nil c front))
  rw [← decodeLine_encode, hbytes]
  rw [hbytes] at hsplit
  simp only [Console.readLine, hsplit]

theorem simulates_offers : Console.Simulates Offers where
  write text stream transcript h := ⟨rfl, h.1, congrArg (· ++ text) h.2⟩
  readLine := by
    rintro ⟨input, output⟩ ⟨lines, _⟩ ⟨⟨text, rfl, rfl⟩, rfl⟩
    by_cases htext : text = []
    · subst htext
      exact ⟨rfl, ⟨[], rfl, rfl⟩, rfl⟩
    · obtain ⟨front, c, rest, rfl, hfront, hc⟩ := exists_firstPiece htext
      rw [readLine_encode hfront hc]
      unfold linesOf
      rw [pieces_append hfront hc]
      refine ⟨?_, ⟨rest, rfl, rfl⟩, rfl⟩
      change Except.ok (some (trimLine _)) = _
      unfold trimLine
      rw [String.toList_ofList]
      rfl

end Stream

/-! ## Reading on -/

/-- The console after the given number of reads. -/
def Console.afterReads {σ : Type} [Console σ] (console : σ) (reads : Nat) : σ :=
  (fun console => (Console.readLine console).2)^[reads] console

theorem Console.afterReads_succ {σ : Type} [Console σ] (console : σ) (reads : Nat) :
    afterReads console (reads + 1) = afterReads (Console.readLine console).2 reads :=
  Function.iterate_succ_apply _ reads console

theorem Console.Simulates.afterReads {σ τ : Type} [Console σ] [Console τ] {R : σ → τ → Prop}
    (h : Console.Simulates R) {s : σ} {t : τ} (hst : R s t) (reads : Nat) :
    R (Console.afterReads s reads) (Console.afterReads t reads) := by
  induction reads generalizing s t with
  | zero => exact hst
  | succ reads ih =>
    rw [Console.afterReads_succ, Console.afterReads_succ]
    exact ih (h.readLine hst).2

theorem Transcript.afterReads (transcript : Transcript) (reads : Nat) :
    Console.afterReads transcript reads =
      { transcript with lines := transcript.lines.drop reads } := by
  induction reads generalizing transcript with
  | zero => rfl
  | succ reads ih =>
    obtain ⟨lines, output⟩ := transcript
    rw [Console.afterReads_succ, ih]
    cases lines with
    | nil => exact congrArg (Transcript.mk · output) List.drop_nil
    | cons line lines => rfl

theorem Transcript.readLine_fst (transcript : Transcript) :
    (Console.readLine transcript).1 = .ok transcript.lines.head? := by
  obtain ⟨_ | ⟨line, lines⟩, output⟩ := transcript <;> rfl

/-- The reads of a stream are answered by the lines of its text in order, and then by none. -/
theorem Stream.readLine_afterReads_ofText (input : String) (reads : Nat) :
    (Console.readLine (Console.afterReads (ofText input) reads)).1 =
      .ok (linesOf input.toList)[reads]? := by
  have hafter := simulates_offers.afterReads (offers_ofText input) reads
  rw [(simulates_offers.readLine hafter).1, Transcript.readLine_fst, Transcript.afterReads,
    List.head?_drop]

end Arrow
