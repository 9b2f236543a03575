import Arrow.Proofs.Grammar.Derivation
import Arrow.Proofs.Grammar.RoundTrip

/-!
# What is read is derived

The routines of the grammar take only what can be derived, so a program is a sequence of statements
that can be derived one after another (`statementsToEnd_iff`).
-/

namespace Arrow

namespace Reply

variable {α β : Type} {a b : Nat} {rest : List Token}

theorem exists_of_outcome_andThen {r : Reply α a}
    {f : α → (rest : List Token) → rest.length < a → Reply β b} {result : β}
    (h : (r.andThen f).outcome = (.ok result, rest)) :
    ∃ value mid, ∃ hlt : mid.length < a, r.outcome = (.ok value, mid) ∧
      (f value mid hlt).outcome = (.ok result, rest) := by
  cases r with
  | ok value mid hlt => exact ⟨value, mid, hlt, rfl, h⟩
  | error cause mid => exact nomatch (Prod.mk.inj h).1

theorem exists_of_outcome_map {r : Reply α a} {f : α → β} {result : β}
    (h : (r.map f).outcome = (.ok result, rest)) :
    ∃ value, r.outcome = (.ok value, rest) ∧ f value = result := by
  cases r with
  | ok value mid hlt =>
    obtain ⟨hvalue, rfl⟩ := Prod.mk.inj h
    exact ⟨value, rfl, Except.ok.inj hvalue⟩
  | error cause mid => exact nomatch (Prod.mk.inj h).1

end Reply

namespace Grammar

/-! ## Soundness -/

section

variable {ts rest : List Token} {p : Position}

theorem exists_of_mark {c : Char} (h : (mark c ts).outcome = (.ok p, rest)) :
    ∃ text, ts = ⟨.punctuation c, text, p⟩ :: rest := by
  unfold mark at h
  split at h
  · cases h
  · split at h
    case isTrue hkind =>
      obtain ⟨hp, rfl⟩ := Prod.mk.inj h
      rename_i token _
      obtain ⟨kind, text, p'⟩ := token
      obtain rfl : kind = .punctuation c := hkind
      cases hp
      exact ⟨text, rfl⟩
    case isFalse => cases h

theorem exists_of_operator {op : Operator} (h : (operator op ts).outcome = (.ok p, rest)) :
    ∃ text, ts = ⟨.operator op, text, p⟩ :: rest := by
  unfold operator at h
  split at h
  · cases h
  · split at h
    case isTrue hkind =>
      obtain ⟨hp, rfl⟩ := Prod.mk.inj h
      rename_i token _
      obtain ⟨kind, text, p'⟩ := token
      obtain rfl : kind = .operator op := hkind
      cases hp
      exact ⟨text, rfl⟩
    case isFalse => cases h

theorem exists_of_identifier {name : String} (h : (identifier ts).outcome = (.ok (name, p), rest)) :
    ∃ text, ts = ⟨.identifier name, text, p⟩ :: rest := by
  unfold identifier at h
  split at h
  · cases h
    exact ⟨_, rfl⟩
  · exact nomatch (Prod.mk.inj h).1

theorem bindable_of_literalWord? {name : String} (h : literalWord? name = none) :
    Bindable name := by
  unfold literalWord? at h
  split at h
  case isTrue => exact nomatch h
  case isFalse htrue =>
    split at h
    case isTrue => exact nomatch h
    case isFalse hfalse =>
      split at h
      case isTrue => exact nomatch h
      case isFalse hnull => exact ⟨htrue, hfalse, hnull⟩

theorem kind_of_literalWord? {name : String} {value : Literal}
    (h : literalWord? name = some value) :
    .identifier name = value.kind := by
  unfold literalWord? at h
  split at h
  case isTrue hname =>
    cases h
    exact congrArg _ hname
  case isFalse =>
    split at h
    case isTrue hname =>
      cases h
      exact congrArg _ hname
    case isFalse =>
      split at h
      case isTrue hname =>
        cases h
        exact congrArg _ hname
      case isFalse => exact nomatch h

theorem exists_of_bindingName {name : String}
    (h : (bindingName ts).outcome = (.ok (name, p), rest)) :
    Bindable name ∧ ∃ text, ts = ⟨.identifier name, text, p⟩ :: rest := by
  unfold bindingName at h
  split at h
  · split at h
    case h_1 => exact nomatch (Prod.mk.inj h).1
    case h_2 hword =>
      cases h
      exact ⟨bindable_of_literalWord? hword, _, rfl⟩
  · exact nomatch (Prod.mk.inj h).1

end

theorem derives_itemsUntil {ts rest : List Token} {closing : Char} {e : Entry} {bound : Nat}
    (hentry : ∀ ts r rest, ts.length ≤ bound → (e.routine ts).outcome = (.ok r, rest) →
      Derives (.entry e) ts r rest) (hcomma : closing ≠ ',')
    {rs : List e.Value} (hts : ts.length ≤ bound)
    (h : (Reply.itemsUntil closing bound (fun tokens _ => e.routine tokens) ts hts).outcome =
      (.ok rs, rest)) : Derives (.itemsUntil closing e) ts rs rest := by
  rw [Reply.itemsUntil] at h
  obtain ⟨r, mid, hlt, hr, h⟩ := Reply.exists_of_outcome_andThen h
  have hfirst := hentry ts r mid hts hr
  split at h
  · exact nomatch (Prod.mk.inj h).1
  · rename_i token behind hlt'
    obtain ⟨kind, text, p⟩ := token
    dsimp only at h
    split at h
    case isTrue hkind =>
      obtain rfl := hkind
      rw [Reply.outcome_upTo] at h
      obtain ⟨rs', hrest, rfl⟩ := Reply.exists_of_outcome_map h
      have hshorter : behind.length < ts.length := Nat.lt_of_succ_lt hlt'
      exact .itemsUntil_more hfirst (derives_itemsUntil hentry hcomma _ hrest)
    case isFalse =>
      split at h
      case isTrue hkind =>
        obtain rfl := hkind
        cases h
        exact .itemsUntil_last hcomma hfirst
      case isFalse => exact nomatch (Prod.mk.inj h).1
termination_by ts.length

theorem derives_items {ts rest : List Token} {closing : Char} {e : Entry}
    (hentry : ∀ mid r rest, mid.length ≤ ts.length → (e.routine mid).outcome = (.ok r, rest) →
      Derives (.entry e) mid r rest) (hcomma : closing ≠ ',') {rs : List e.Value}
    (h : (Reply.items closing ts fun tokens _ => e.routine tokens).outcome = (.ok rs, rest)) :
    Derives (.items closing e) ts rs rest := by
  cases ts with
  | nil => exact .items_cons (fun _ => nofun) (derives_itemsUntil hentry hcomma _ h)
  | cons token behind =>
    unfold Reply.items at h
    dsimp only at h
    split at h
    case isTrue hkind =>
      obtain ⟨kind, text, p⟩ := token
      obtain rfl : kind = .punctuation closing := hkind
      cases h
      exact .items_nil
    case isFalse hkind =>
      exact .items_cons (startsNot_cons.2 (decide_eq_false hkind))
        (derives_itemsUntil hentry hcomma _ h)

theorem startsNot_of_forall {test : TokenKind → Bool} {tokens : List Token}
    (h : ∀ kind text p rest, tokens = ⟨kind, text, p⟩ :: rest → test kind = false) :
    StartsNot test tokens := by
  cases tokens with
  | nil => exact fun _ => nofun
  | cons token rest => exact startsNot_cons.2 (h _ _ _ _ rfl)

theorem exists_of_opens {tokens : List Token} (h : ¬ StartsNot TokenKind.opens tokens) :
    ∃ text p rest, tokens = ⟨.punctuation '(', text, p⟩ :: rest := by
  cases tokens with
  | nil => exact (h fun _ => nofun).elim
  | cons token rest =>
    obtain ⟨kind, text, p⟩ := token
    rw [startsNot_cons, TokenKind.opens, decide_eq_false_iff_not, Decidable.not_not] at h
    obtain rfl : kind = .punctuation '(' := h
    exact ⟨text, p, rest, rfl⟩

mutual

theorem derives_expression {ts rest : List Token} {r : Expr}
    (h : (expression ts).outcome = (.ok r, rest)) :
    Derives (.entry .expression) ts r rest := by
  rw [expression] at h
  obtain ⟨left, mid, hlt, hleft, h⟩ := Reply.exists_of_outcome_andThen h
  rw [Reply.outcome_upTo] at h
  exact .expression (derives_unary hleft) (derives_chain h)
termination_by 4 * ts.length + 3

theorem derives_chain {ts rest : List Token} {left r : Expr}
    (h : (chain left ts).outcome = (.ok r, rest)) :
    Derives (.chain left) ts r rest := by
  generalize htokens : ts = tokens at h ⊢
  rw [chain.eq_def] at h
  split at h
  case h_1 op text p ts =>
    split at h
    case isTrue hop =>
      obtain ⟨right, mid, hlt, hright, h⟩ := Reply.exists_of_outcome_andThen h
      rw [Reply.outcome_upTo] at h
      exact .chain_binary hop (derives_unary hright) (derives_chain h)
    case isFalse hop =>
      cases h
      exact .chain_end (startsNot_cons.2 (Bool.eq_false_iff.2 hop))
  case h_2 hother =>
    cases h
    refine .chain_end (startsNot_of_forall fun kind text p behind heq => ?_)
    cases kind with
    | operator op => exact (hother op text p behind heq).elim
    | _ => rfl
termination_by 4 * ts.length + 3
decreasing_by
  all_goals
    subst_vars
    simp only [List.length_cons] at *
    omega

theorem derives_unary {ts rest : List Token} {r : Expr} (h : (unary ts).outcome = (.ok r, rest)) :
    Derives .unary ts r rest := by
  generalize htokens : ts = tokens at h ⊢
  rw [unary.eq_def] at h
  split at h
  case h_1 text p ts =>
    rw [Reply.outcome_upTo] at h
    obtain ⟨operand, hoperand, rfl⟩ := Reply.exists_of_outcome_map h
    exact .unary_not (derives_unary hoperand)
  case h_2 hother =>
    obtain ⟨target, mid, hlt, htarget, h⟩ := Reply.exists_of_outcome_andThen h
    rw [Reply.outcome_upTo] at h
    refine .unary_operand (startsNot_of_forall fun kind text p behind heq => ?_)
      (derives_primary htarget) (derives_selections h)
    rw [decide_eq_false_iff_not]
    rintro rfl
    exact hother text p behind heq
termination_by 4 * ts.length + 2
decreasing_by
  all_goals
    subst_vars
    simp only [List.length_cons] at *
    omega

theorem derives_selections {ts rest : List Token} {target r : Expr}
    (h : (selections target ts).outcome = (.ok r, rest)) :
    Derives (.selections target) ts r rest := by
  generalize htokens : ts = tokens at h ⊢
  rw [selections.eq_def] at h
  split at h
  case h_1 text p ts =>
    obtain ⟨i, mid, hlt, hi, h⟩ := Reply.exists_of_outcome_andThen h
    obtain ⟨p', mid', hlt', hmark, hrest⟩ := Reply.exists_of_outcome_andThen h
    rw [Reply.outcome_upTo] at hrest
    obtain ⟨text', rfl⟩ := exists_of_mark hmark
    exact .selections_index (derives_expression hi) (derives_selections hrest)
  case h_2 text p ts =>
    obtain ⟨⟨property, p'⟩, mid, hlt, hname, hrest⟩ := Reply.exists_of_outcome_andThen h
    rw [Reply.outcome_upTo] at hrest
    obtain ⟨text', rfl⟩ := exists_of_identifier hname
    exact .selections_member (derives_selections hrest)
  case h_3 hindex hmember =>
    cases h
    refine .selections_end (startsNot_of_forall fun kind text p behind heq => ?_)
    cases kind with
    | punctuation c =>
      rw [TokenKind.picks, Bool.or_eq_false_iff, decide_eq_false_iff_not, decide_eq_false_iff_not]
      constructor
      · rintro rfl
        exact hindex text p behind heq
      · rintro rfl
        exact hmember text p behind heq
    | _ => rfl
termination_by 4 * ts.length + 3
decreasing_by
  all_goals
    subst_vars
    simp only [List.length_cons] at *
    omega

theorem derives_primary {ts rest : List Token} {r : Expr}
    (h : (primary ts).outcome = (.ok r, rest)) :
    Derives .primary ts r rest := by
  generalize htokens : ts = tokens at h ⊢
  have hprimary := h
  rw [primary.eq_def] at h
  split at h
  case h_1 n text p behind =>
    cases h
    exact @Derives.primary_literal (.integer n) _ _ _
  case h_2 x text p behind =>
    cases h
    exact @Derives.primary_literal (.float x) _ _ _
  case h_3 content text p behind =>
    cases h
    exact @Derives.primary_literal (.text content) _ _ _
  case h_4 name text p behind =>
    cases hword : literalWord? name with
    | some value =>
      rw [outcome_primary_literal (kind_of_literalWord? hword)] at hprimary
      cases hprimary
      rw [kind_of_literalWord? hword]
      exact .primary_literal
    | none =>
      have hname := bindable_of_literalWord? hword
      by_cases hopens : StartsNot TokenKind.opens behind
      · rw [outcome_primary_var rfl hname hopens] at hprimary
        cases hprimary
        exact .primary_var hname hopens
      · obtain ⟨text', p', ts, rfl⟩ := exists_of_opens hopens
        rw [hword] at h
        change (Reply.upTo (Reply.map _ (Reply.items ')' ts fun tokens _ => expression tokens))
          _).outcome = _ at h
        rw [Reply.outcome_upTo] at h
        obtain ⟨args, hargs, rfl⟩ := Reply.exists_of_outcome_map h
        exact .primary_call hname
          (derives_items (e := .expression) (fun _ _ _ hle => derives_expression) (by decide) hargs)
  case h_5 text p behind =>
    obtain ⟨value, mid, hlt, hvalue, h⟩ := Reply.exists_of_outcome_andThen h
    obtain ⟨p', mid', hlt', hmark, h⟩ := Reply.exists_of_outcome_andThen h
    obtain ⟨text', rfl⟩ := exists_of_mark hmark
    cases h
    exact .primary_parentheses (derives_expression hvalue)
  case h_6 text p behind =>
    rw [Reply.outcome_upTo] at h
    obtain ⟨elements, helements, rfl⟩ := Reply.exists_of_outcome_map h
    exact .primary_array
      (derives_items (e := .expression) (fun _ _ _ hle => derives_expression) (by decide) helements)
  case h_7 text p behind =>
    rw [Reply.outcome_upTo] at h
    obtain ⟨fields, hfields, rfl⟩ := Reply.exists_of_outcome_map h
    exact .primary_object
      (derives_items (e := .field) (fun _ _ _ hle => derives_field) (by decide) hfields)
  case h_8 => exact nomatch (Prod.mk.inj h).1
termination_by 4 * ts.length
decreasing_by
  all_goals
    subst_vars
    simp only [List.length_cons] at *
    omega

theorem derives_field {ts rest : List Token} {r : String × Expr}
    (h : (field ts).outcome = (.ok r, rest)) :
    Derives (.entry .field) ts r rest := by
  generalize htokens : ts = tokens at h ⊢
  rw [field.eq_def] at h
  split at h
  case h_1 key text p behind => exact derives_fieldValue (.inl rfl) h
  case h_2 key text p behind => exact derives_fieldValue (.inr rfl) h
  case h_3 => exact nomatch (Prod.mk.inj h).1
termination_by 4 * ts.length
decreasing_by
  all_goals
    subst_vars
    simp only [List.length_cons] at *
    omega

theorem derives_fieldValue {ts rest : List Token} {key : String} {r : String × Expr}
    {kind : TokenKind} {text : String} {p : Position}
    (hkey : kind = .identifier key ∨ kind = .text key)
    (h : (fieldValue key ts).outcome = (.ok r, rest)) :
    Derives (.entry .field) (⟨kind, text, p⟩ :: ts) r rest := by
  rw [fieldValue] at h
  obtain ⟨p', mid, hlt, hmark, h⟩ := Reply.exists_of_outcome_andThen h
  rw [Reply.outcome_upTo] at h
  obtain ⟨value, hvalue, rfl⟩ := Reply.exists_of_outcome_map h
  obtain ⟨text', rfl⟩ := exists_of_mark hmark
  exact .field hkey (derives_expression hvalue)
termination_by 4 * ts.length
decreasing_by
  all_goals
    subst_vars
    simp only [List.length_cons] at *
    omega

end

section

variable {ts rest : List Token}

theorem derives_declaredType {r : DeclaredType} (h : (declaredType ts).outcome = (.ok r, rest)) :
    Derives .declaredType ts r rest := by
  unfold declaredType at h
  obtain ⟨p, mid, hlt, hopening, h⟩ := Reply.exists_of_outcome_andThen h
  obtain ⟨⟨word, p₁⟩, mid₁, hlt₁, hword, h⟩ := Reply.exists_of_outcome_andThen h
  obtain ⟨text, rfl⟩ := exists_of_operator hopening
  obtain ⟨text₁, rfl⟩ := exists_of_identifier hword
  dsimp only at h
  split at h
  case isTrue hconst =>
    obtain rfl := hconst
    obtain ⟨⟨name, p₂⟩, mid₂, hlt₂, hname, h⟩ := Reply.exists_of_outcome_andThen h
    obtain ⟨p₃, mid₃, hlt₃, hclosing, h⟩ := Reply.exists_of_outcome_andThen h
    obtain ⟨text₂, rfl⟩ := exists_of_identifier hname
    obtain ⟨text₃, rfl⟩ := exists_of_operator hclosing
    cases h
    exact .declaredType_const
  case isFalse hconst =>
    obtain ⟨p₂, mid₂, hlt₂, hclosing, h⟩ := Reply.exists_of_outcome_andThen h
    obtain ⟨text₂, rfl⟩ := exists_of_operator hclosing
    cases h
    exact .declaredType_plain hconst

theorem startsNot_of_startsWith {kind : TokenKind} (h : startsWith kind ts = false) :
    StartsNot (· = kind) ts := by
  cases ts with
  | nil => exact fun _ => nofun
  | cons token ts => exact startsNot_cons.2 h

theorem derives_optionalType {known r : Option DeclaredType} {what : Expectation}
    (h : (optionalType known what ts).outcome = (.ok r, rest)) :
    Derives (.optionalType known) ts r rest := by
  unfold optionalType at h
  split at h
  case isTrue =>
    split at h
    case isTrue => exact nomatch (Prod.mk.inj h).1
    case isFalse hknown =>
      obtain rfl : known = none := Option.not_isSome_iff_eq_none.1 hknown
      rw [Reply.outcome_upTo] at h
      obtain ⟨type, htype, rfl⟩ := Reply.exists_of_outcome_map h
      exact .optionalType_some (derives_declaredType htype)
  case isFalse hstart =>
    cases h
    exact .optionalType_none (startsNot_of_startsWith (Bool.eq_false_iff.2 hstart))

theorem derives_declaration {p : Position} {kind : Mutability} {word : Option String}
    {r : Statement} (h : (declaration p kind word ts).outcome = (.ok r, rest)) :
    Derives (.declaration p kind word) ts r rest := by
  unfold declaration at h
  obtain ⟨⟨name, p₁⟩, mid, hlt, hname, h⟩ := Reply.exists_of_outcome_andThen h
  obtain ⟨type, mid₁, hlt₁, htype, h⟩ := Reply.exists_of_outcome_andThen h
  obtain ⟨hbindable, text, rfl⟩ := exists_of_bindingName hname
  have htype := derives_optionalType htype
  split at h
  case h_1 text' p' mid₁ _ =>
    rw [Reply.outcome_upTo] at h
    obtain ⟨value, hvalue, rfl⟩ := Reply.exists_of_outcome_map h
    exact .declaration_value hbindable htype (derives_expression hvalue)
  case h_2 hother =>
    cases h
    refine .declaration_absent hbindable htype ?_
    refine startsNot_of_forall fun kind text p behind heq => ?_
    rw [decide_eq_false_iff_not]
    rintro rfl
    subst heq
    exact hother text p behind hlt₁ rfl HEq.rfl

theorem derives_parameterName {kind : Mutability} {known : Option DeclaredType} {r : Parameter}
    (h : (parameter.parameterName kind known ts).outcome = (.ok r, rest)) :
    Derives (.parameterName kind known) ts r rest := by
  unfold parameter.parameterName at h
  obtain ⟨⟨name, p⟩, mid, hlt, hname, h⟩ := Reply.exists_of_outcome_andThen h
  obtain ⟨type, mid₁, hlt₁, htype, h⟩ := Reply.exists_of_outcome_andThen h
  obtain ⟨hbindable, text, rfl⟩ := exists_of_bindingName hname
  cases h
  exact .parameterName hbindable (derives_optionalType htype)

theorem derives_parameter {r : Parameter} (h : (parameter ts).outcome = (.ok r, rest)) :
    Derives (.entry .parameter) ts r rest := by
  unfold parameter at h
  split at h
  · rw [Reply.outcome_upTo] at h
    exact .parameter_const (derives_parameterName h)
  · rw [Reply.outcome_upTo] at h
    exact .parameter_var (derives_parameterName h)
  · exact .parameter_plain (derives_parameterName h)

theorem derives_header {p : Position} {word : Option String} {r : Header}
    (h : (header p word ts).outcome = (.ok r, rest)) : Derives (.header p word) ts r rest := by
  unfold header at h
  obtain ⟨⟨name, p₁⟩, mid, hlt, hname, h⟩ := Reply.exists_of_outcome_andThen h
  obtain ⟨p₂, mid₁, hlt₁, hopening, h⟩ := Reply.exists_of_outcome_andThen h
  obtain ⟨params, mid₂, hlt₂, hparams, h⟩ := Reply.exists_of_outcome_andThen h
  obtain ⟨text, rfl⟩ := exists_of_identifier hname
  obtain ⟨text', rfl⟩ := exists_of_mark hopening
  have hparams := derives_items (e := .parameter) (fun _ _ _ _ => derives_parameter) (by decide)
    hparams
  split at h
  · exact nomatch (Prod.mk.inj h).1
  · rename_i hrepeated
    obtain ⟨type, mid₃, hlt₃, htype, h⟩ := Reply.exists_of_outcome_andThen h
    cases h
    exact .header hparams hrepeated (derives_optionalType htype)

theorem derives_named {name : String} {text : String} {p : Position} {r : Statement}
    (h : (named p (⟨.identifier name, text, p⟩ :: ts)).outcome = (.ok r, rest)) :
    Derives .statement (⟨.identifier name, text, p⟩ :: ts) r rest := by
  unfold named at h
  dsimp only [List.tail_cons] at h
  split at h
  · exact .statement_declaration (derives_declaration h)
  · obtain ⟨⟨name, p₁⟩, mid, hlt, hname, h⟩ := Reply.exists_of_outcome_andThen h
    obtain ⟨p₂, mid₁, hlt₁, hsign, h⟩ := Reply.exists_of_outcome_andThen h
    rw [Reply.outcome_upTo] at h
    obtain ⟨value, hvalue, rfl⟩ := Reply.exists_of_outcome_map h
    obtain ⟨hbindable, text, heq⟩ := exists_of_bindingName hname
    obtain ⟨text', rfl⟩ := exists_of_operator hsign
    cases heq
    exact .statement_assignment hbindable (derives_expression hvalue)
  · obtain ⟨value, hvalue, rfl⟩ := Reply.exists_of_outcome_map h
    exact .statement_expression (derives_expression hvalue)
  · exact nomatch (Prod.mk.inj h).1

theorem derives_returned {text : String} {p : Position} {r : Statement}
    (h : (returned p ts).outcome = (.ok r, rest)) :
    Derives .statement (⟨.keyword .arrow, text, p⟩ :: ts) r rest := by
  unfold returned at h
  split at h
  case isTrue hends =>
    cases h
    refine .statement_returnAbsent fun token htoken => ?_
    cases ts with
    | nil => exact nomatch htoken
    | cons next ts =>
      obtain rfl := Option.some.inj htoken
      obtain ⟨kind, text, p⟩ := next
      simp only [List.isEmpty_cons, Bool.false_or, startsWith, List.head?_cons, Option.any_some,
        Bool.or_eq_true, decide_eq_true_eq] at hends
      obtain rfl | rfl := hends <;> rfl
  case isFalse hends =>
    rw [Reply.outcome_upTo] at h
    obtain ⟨value, hvalue, rfl⟩ := Reply.exists_of_outcome_map h
    rw [Bool.not_eq_true, Bool.or_eq_false_iff, Bool.or_eq_false_iff] at hends
    obtain ⟨⟨hempty, hbrace⟩, hlast⟩ := hends
    refine .statement_return (List.isEmpty_eq_false_iff.1 hempty) ?_ (derives_expression hvalue)
    refine startsNot_of_forall fun kind text p behind heq => ?_
    subst heq
    cases kind with
    | punctuation c =>
      refine decide_eq_false fun hclosing => ?_
      rw [hclosing] at hbrace
      exact nomatch hbrace
    | endOfInput => exact nomatch hlast
    | _ => rfl

end

mutual

theorem derives_statement {ts rest : List Token} {r : Statement}
    (h : (statement ts).outcome = (.ok r, rest)) : Derives .statement ts r rest := by
  generalize htokens : ts = tokens at h ⊢
  rw [statement.eq_def] at h
  split at h
  case h_1 type text p behind =>
    rw [Reply.outcome_upTo] at h
    exact .statement_var (derives_declaration h)
  case h_2 type text p behind =>
    rw [Reply.outcome_upTo] at h
    exact .statement_const (derives_declaration h)
  case h_3 type text p behind =>
    obtain ⟨head, mid, hlt, hhead, h⟩ := Reply.exists_of_outcome_andThen h
    rw [Reply.outcome_upTo] at h
    obtain ⟨body, hbody, rfl⟩ := Reply.exists_of_outcome_map h
    exact .statement_function (derives_header hhead) (derives_block hbody)
  case h_4 text p behind => exact derives_returned h
  case h_5 text p behind =>
    rw [conditional] at h
    obtain ⟨first, mid, hlt, hfirst, h⟩ := Reply.exists_of_outcome_andThen h
    rw [Reply.outcome_upTo] at h
    obtain ⟨⟨others, otherwise⟩, hothers, rfl⟩ := Reply.exists_of_outcome_map h
    exact .statement_conditional (derives_branch hfirst) (derives_otherBranches hothers)
  case h_6 text p behind =>
    rw [whileLoop, Reply.outcome_upTo] at h
    obtain ⟨⟨condition, body⟩, hbranch, rfl⟩ := Reply.exists_of_outcome_map h
    exact .statement_while (derives_branch hbranch)
  case h_7 text p behind =>
    rw [forLoop] at h
    have hskip := length_skipArrow_le behind
    obtain ⟨init, mid, hlt, hinit, h⟩ := Reply.exists_of_outcome_andThen h
    obtain ⟨p₁, mid₁, hlt₁, hfirst, h⟩ := Reply.exists_of_outcome_andThen h
    obtain ⟨condition, mid₂, hlt₂, hcondition, h⟩ := Reply.exists_of_outcome_andThen h
    obtain ⟨p₂, mid₃, hlt₃, hsecond, h⟩ := Reply.exists_of_outcome_andThen h
    obtain ⟨update, mid₄, hlt₄, hupdate, h⟩ := Reply.exists_of_outcome_andThen h
    rw [Reply.outcome_upTo] at h
    obtain ⟨body, hbody, rfl⟩ := Reply.exists_of_outcome_map h
    obtain ⟨text₁, rfl⟩ := exists_of_mark hfirst
    obtain ⟨text₂, rfl⟩ := exists_of_mark hsecond
    exact .statement_for (derives_statement hinit) (derives_expression hcondition)
      (derives_statement hupdate) (derives_block hbody)
  case h_8 name text p behind => exact derives_named h
  case h_9 => exact nomatch (Prod.mk.inj h).1
termination_by 4 * ts.length + 2
decreasing_by
  all_goals
    subst_vars
    simp only [List.length_cons] at *
    omega

theorem derives_block {ts rest : List Token} {r : List Statement}
    (h : (block ts).outcome = (.ok r, rest)) : Derives .block ts r rest := by
  rw [block] at h
  obtain ⟨p, mid, hlt, hopening, hbody⟩ := Reply.exists_of_outcome_andThen h
  rw [Reply.outcome_upTo] at hbody
  obtain ⟨text, rfl⟩ := exists_of_mark hopening
  exact .block (derives_statements hbody)
termination_by 4 * ts.length
decreasing_by
  simp only [List.length_cons] at *
  omega

theorem derives_statements {ts rest : List Token} {r : List Statement}
    (h : (statements ts).outcome = (.ok r, rest)) : Derives .statements ts r rest := by
  generalize htokens : ts = tokens at h ⊢
  rw [statements.eq_def] at h
  split at h
  case h_1 text p behind =>
    cases h
    exact .statements_nil
  case h_2 => exact nomatch (Prod.mk.inj h).1
  case h_3 => exact nomatch (Prod.mk.inj h).1
  case h_4 =>
    obtain ⟨first, mid, hlt, hfirst, h⟩ := Reply.exists_of_outcome_andThen h
    rw [Reply.outcome_upTo] at h
    obtain ⟨others, hothers, rfl⟩ := Reply.exists_of_outcome_map h
    exact .statements_cons (derives_statement hfirst) (derives_statements hothers)
termination_by 4 * ts.length + 3
decreasing_by
  all_goals
    subst_vars
    omega

theorem derives_branch {ts rest : List Token} {r : Branch}
    (h : (branch ts).outcome = (.ok r, rest)) : Derives .branch ts r rest := by
  rw [branch] at h
  have hskip := length_skipArrow_le ts
  obtain ⟨condition, mid, hlt, hcondition, h⟩ := Reply.exists_of_outcome_andThen h
  rw [Reply.outcome_upTo] at h
  obtain ⟨body, hbody, rfl⟩ := Reply.exists_of_outcome_map h
  exact .branch (derives_expression hcondition) (derives_block hbody)
termination_by 4 * ts.length + 1

theorem derives_otherBranches {ts rest : List Token} {r : List Branch × Option (List Statement)}
    (h : (otherBranches ts).outcome = (.ok r, rest)) : Derives .otherBranches ts r rest := by
  generalize htokens : ts = tokens at h ⊢
  rw [otherBranches.eq_def] at h
  split at h
  case h_1 text p behind =>
    obtain ⟨first, mid, hlt, hfirst, h⟩ := Reply.exists_of_outcome_andThen h
    rw [Reply.outcome_upTo] at h
    obtain ⟨⟨others, otherwise⟩, hothers, rfl⟩ := Reply.exists_of_outcome_map h
    exact .otherBranches_elif (derives_branch hfirst) (derives_otherBranches hothers)
  case h_2 text p behind =>
    rw [Reply.outcome_upTo] at h
    obtain ⟨body, hbody, rfl⟩ := Reply.exists_of_outcome_map h
    exact .otherBranches_else (derives_block hbody)
  case h_3 helif helse =>
    cases h
    refine .otherBranches_none (startsNot_of_forall fun kind text p behind heq => ?_)
    cases kind with
    | keyword word =>
      cases word with
      | elifWord => exact (helif text p behind heq).elim
      | elseWord => exact (helse text p behind heq).elim
      | _ => rfl
    | _ => rfl
termination_by 4 * ts.length + 2
decreasing_by
  all_goals
    subst_vars
    simp only [List.length_cons] at *
    omega

end

/-! ## Programs -/

/-- The tokens up to the end of the input are the statements. -/
inductive DerivesProgram : List Token → List Statement → Prop
  | nil : DerivesProgram [] []
  | endOfInput {text p rest} : DerivesProgram (⟨.endOfInput, text, p⟩ :: rest) []
  | cons {ts mid first others} :
      Derives .statement ts first mid → DerivesProgram mid others →
      DerivesProgram ts (first :: others)

theorem derivesProgram_of_statementsToEnd {ts : List Token} {body : List Statement}
    (h : statementsToEnd ts = .ok body) : DerivesProgram ts body := by
  generalize htokens : ts = tokens at h ⊢
  rw [statementsToEnd.eq_def] at h
  split at h
  case h_1 =>
    cases h
    exact .nil
  case h_2 =>
    cases h
    exact .endOfInput
  case h_3 =>
    split at h
    case h_1 => cases h
    case h_2 first rest hlt hreply =>
      split at h
      case h_1 => cases h
      case h_2 others hothers =>
        cases h
        have hfirst := derives_statement (congrArg Reply.outcome hreply)
        exact .cons hfirst (derivesProgram_of_statementsToEnd hothers)
termination_by ts.length

theorem statementsToEnd_iff {ts : List Token} {body : List Statement} :
    statementsToEnd ts = .ok body ↔ DerivesProgram ts body := by
  refine ⟨derivesProgram_of_statementsToEnd, fun h => ?_⟩
  induction h with
  | nil => rw [statementsToEnd]
  | endOfInput => rw [statementsToEnd]
  | cons hfirst _ ih =>
    obtain ⟨token, behind, rfl, hbegins⟩ := hfirst.beginsStatement
    exact statementsToEnd_cons hbegins hfirst.takes ih

theorem derivesProgram_of_parse {ts : List Token} {program : Program}
    (h : parse ts = .ok program) :
    DerivesProgram (ts.filter (!·.isComment)) program.body := by
  unfold parse at h
  cases hbody : statementsToEnd (ts.filter (!·.isComment)) with
  | error cause =>
    rw [hbody] at h
    exact nomatch h
  | ok body =>
    rw [hbody] at h
    obtain rfl := Except.ok.inj h
    exact statementsToEnd_iff.1 hbody

end Grammar

end Arrow
