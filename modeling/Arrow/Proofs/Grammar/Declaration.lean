import Arrow.Grammar.Declaration
import Arrow.Proofs.Grammar.Expression

/-!
# Reading printed declarations

Annotations, variables, parameters and the heads of functions are read back as they were printed.
-/

namespace Arrow

/-- The token that opens an annotation. -/
def TokenKind.annotates (kind : TokenKind) : Bool :=
  kind = .operator .typeOpen

theorem TokenKind.annotates_of_continues {kind : TokenKind} (h : kind.continues = false) :
    kind.annotates = false := by
  unfold annotates
  rw [decide_eq_false_iff_not]
  rintro rfl
  exact nomatch h

namespace Grammar

/-! ## One step of the routines -/

section

variable {opening word token closing : Token} {name : String} {rest : List Token}

theorem outcome_declaredType_const (hopening : opening.kind = .operator .typeOpen)
    (hword : word.kind = .identifier "const") (htoken : token.kind = .identifier name)
    (hclosing : closing.kind = .operator .typeClose) :
    (declaredType (opening :: word :: token :: closing :: rest)).outcome =
      (.ok ⟨name, true, token.position⟩, rest) := by
  refine Reply.outcome_andThen (outcome_operator hopening) fun _ => ?_
  refine Reply.outcome_andThen (outcome_identifier hword) fun _ => ?_
  dsimp only
  rw [if_pos rfl]
  refine Reply.outcome_andThen (outcome_identifier htoken) fun _ => ?_
  refine Reply.outcome_andThen (outcome_operator hclosing) fun _ => ?_
  rfl

theorem outcome_declaredType_plain (hopening : opening.kind = .operator .typeOpen)
    (htoken : token.kind = .identifier name) (hname : name ≠ "const")
    (hclosing : closing.kind = .operator .typeClose) :
    (declaredType (opening :: token :: closing :: rest)).outcome =
      (.ok ⟨name, false, token.position⟩, rest) := by
  refine Reply.outcome_andThen (outcome_operator hopening) fun _ => ?_
  refine Reply.outcome_andThen (outcome_identifier htoken) fun _ => ?_
  dsimp only
  rw [if_neg hname]
  refine Reply.outcome_andThen (outcome_operator hclosing) fun _ => ?_
  rfl

theorem outcome_optionalType_none (h : StartsNot TokenKind.annotates rest)
    (known : Option DeclaredType) (what : Expectation) :
    (optionalType known what rest).outcome = (.ok known, rest) := by
  have hstart : startsWith (.operator .typeOpen) rest = false := by
    cases rest with
    | nil => rfl
    | cons token rest => exact startsNot_cons.1 h
  unfold optionalType
  rw [hstart]
  rfl

theorem outcome_optionalType_some {type : DeclaredType} {behind : List Token}
    (hopening : opening.kind = .operator .typeOpen)
    (h : (declaredType (opening :: rest)).outcome = (.ok type, behind)) (what : Expectation) :
    (optionalType none what (opening :: rest)).outcome = (.ok (some type), behind) := by
  have hstart : startsWith (.operator .typeOpen) (opening :: rest) = true :=
    decide_eq_true hopening
  unfold optionalType
  rw [hstart, if_pos rfl, if_neg (by decide), Reply.outcome_upTo, Reply.outcome_map, h]
  rfl

end

/-! ## Types -/

theorem reads_declaredType {type : DeclaredType} (h : type.name ≠ "const") :
    Reads TokenKind.never DeclaredType.unplaced declaredType (DeclaredType.kinds (some type))
      type.unplaced := by
  intro tokens rest htokens _
  obtain ⟨name, constant, p⟩ := type
  cases constant with
  | true =>
    obtain ⟨opening, tokens, rfl, hopening, htokens⟩ := exists_of_map_kind_eq_cons htokens
    obtain ⟨word, tokens, rfl, hword, htokens⟩ := exists_of_map_kind_eq_cons htokens
    obtain ⟨token, tokens, rfl, htoken, htokens⟩ := exists_of_map_kind_eq_cons htokens
    obtain ⟨closing, tokens, rfl, hclosing, htokens⟩ := exists_of_map_kind_eq_cons htokens
    obtain rfl := List.map_eq_nil_iff.1 htokens
    exact ⟨⟨name, true, token.position⟩, rfl,
      outcome_declaredType_const hopening hword htoken hclosing⟩
  | false =>
    obtain ⟨opening, tokens, rfl, hopening, htokens⟩ := exists_of_map_kind_eq_cons htokens
    obtain ⟨token, tokens, rfl, htoken, htokens⟩ := exists_of_map_kind_eq_cons htokens
    obtain ⟨closing, tokens, rfl, hclosing, htokens⟩ := exists_of_map_kind_eq_cons htokens
    obtain rfl := List.map_eq_nil_iff.1 htokens
    exact ⟨⟨name, false, token.position⟩, rfl,
      outcome_declaredType_plain hopening htoken h hclosing⟩

theorem reads_optionalType {kind : Mutability} {type : Option DeclaredType}
    (h : DeclaredType.Fits kind type) (what : Expectation) :
    Reads TokenKind.annotates (Option.map DeclaredType.unplaced) (optionalType none what)
      (DeclaredType.kinds type) (type.map DeclaredType.unplaced) := by
  intro tokens rest htokens hrest
  cases type with
  | none =>
    obtain rfl := List.map_eq_nil_iff.1 htokens
    exact ⟨none, rfl, outcome_optionalType_none hrest none what⟩
  | some type =>
    obtain ⟨read, hread, houtcome⟩ :=
      reads_declaredType (h type rfl).1 tokens rest htokens (startsNot_never rest)
    refine ⟨some read, congrArg some hread, ?_⟩
    obtain ⟨name, _ | _, p⟩ := type
    all_goals
      obtain ⟨opening, tokens, rfl, hopening, -⟩ := exists_of_map_kind_eq_cons htokens
      exact outcome_optionalType_some hopening houtcome what

theorem settled_unplaced (kind : Mutability) (type : Option DeclaredType) :
    settled kind (type.map DeclaredType.unplaced) = settled kind type := by
  cases type <;> rfl

/-- A type that fits does not change whether a name is constant. -/
theorem settled_eq {kind : Mutability} {type read : Option DeclaredType}
    (h : DeclaredType.Fits kind type)
    (hread : read.map DeclaredType.unplaced = type.map DeclaredType.unplaced) :
    settled kind read = kind := by
  rw [← settled_unplaced, hread, settled_unplaced]
  unfold settled
  split
  case isTrue hconst =>
    obtain ⟨declared, hdeclared, hconst⟩ := (Option.any_eq_true _ _).1 hconst
    exact ((h declared hdeclared).2 hconst).symm
  case isFalse => rfl

/-! ## Variables -/

theorem reads_declaration {kind : Mutability} {name : String} {type : Option DeclaredType}
    {init : Expr} (hname : Bindable name) (htype : DeclaredType.Fits kind type)
    (hinit : init.WellFormed) (p : Position) :
    Reads TokenKind.continues Statement.unplaced (declaration p kind none)
      (.identifier name :: (DeclaredType.kinds type ++ .operator .assign :: init.kinds))
      (.declaration kind name (type.map DeclaredType.unplaced) init.unplaced .unknown) := by
  intro tokens rest htokens hrest
  obtain ⟨token, tokens, rfl, htoken, htokens⟩ := exists_of_map_kind_eq_cons htokens
  obtain ⟨front, sign, behind, rfl, hfront, hsign, hbehind⟩ :=
    exists_of_map_kind_eq_append htokens
  obtain ⟨type', htype', houtcome⟩ := reads_optionalType htype (.operator .assign) front
    (sign :: (behind ++ rest)) hfront (startsNot_cons.2 (by rw [hsign]; rfl))
  obtain ⟨read, hread, houtcome'⟩ := hinit.reads behind rest hbehind hrest
  refine ⟨.declaration kind name type' read p, ?_, ?_⟩
  · rw [Statement.unplaced, hread, htype']
  · rw [List.cons_append, List.append_assoc, List.cons_append]
    refine Reply.outcome_andThen (outcome_bindingName htoken hname) fun _ => ?_
    refine Reply.outcome_andThen houtcome fun _ => ?_
    obtain ⟨_, text, p'⟩ := sign
    obtain rfl := hsign
    dsimp only
    rw [Reply.outcome_upTo, Reply.outcome_map, houtcome', settled_eq htype htype']
    rfl

/-! ## Parameters -/

theorem reads_parameterName {kind : Mutability} {name : String} {type : Option DeclaredType}
    (hname : Bindable name) (htype : DeclaredType.Fits kind type) :
    Reads TokenKind.continues Parameter.unplaced (parameter.parameterName kind none)
      (.identifier name :: DeclaredType.kinds type)
      ⟨name, type.map DeclaredType.unplaced, kind, .unknown⟩ := by
  intro tokens rest htokens hrest
  obtain ⟨token, tokens, rfl, htoken, htokens⟩ := exists_of_map_kind_eq_cons htokens
  obtain ⟨type', htype', houtcome⟩ := reads_optionalType htype (.afterItem ')') tokens rest
    htokens (hrest.mono TokenKind.annotates_of_continues)
  refine ⟨⟨name, type', kind, token.position⟩, ?_, ?_⟩
  · rw [← htype']
    rfl
  · refine Reply.outcome_andThen (outcome_bindingName htoken hname) fun _ => ?_
    refine Reply.outcome_andThen houtcome fun _ => ?_
    rw [settled_eq htype htype']
    rfl

theorem reads_parameter {param : Parameter} (h : param.WellFormed) :
    Reads TokenKind.continues Parameter.unplaced parameter param.kinds param.unplaced := by
  intro tokens rest htokens hrest
  obtain ⟨name, type, kind, p⟩ := param
  obtain ⟨⟨_, text, p'⟩, tokens, rfl, hmarker, htokens⟩ := exists_of_map_kind_eq_cons htokens
  obtain ⟨read, hread, houtcome⟩ := reads_parameterName h.1 h.2 tokens rest htokens hrest
  refine ⟨read, hread, ?_⟩
  obtain rfl := hmarker
  cases kind with
  | const =>
    change (Reply.upTo (parameter.parameterName .const none (tokens ++ rest))
      (Reply.length_le _)).outcome = _
    rw [Reply.outcome_upTo, houtcome]
  | var =>
    change (Reply.upTo (parameter.parameterName .var none (tokens ++ rest))
      (Reply.length_le _)).outcome = _
    rw [Reply.outcome_upTo, houtcome]

theorem repeated?_cons (seen : List String) (param : Parameter) (params : List Parameter) :
    repeated? seen (param :: params) =
      if param.name ∈ seen then some param else repeated? (param.name :: seen) params := by
  rw [repeated?]
  simp only [List.contains_iff_mem]

theorem repeated?_eq_none_iff {params : List Parameter} {seen : List String} :
    repeated? seen params = none ↔
      (params.map (·.name)).Nodup ∧ ∀ param ∈ params, param.name ∉ seen := by
  induction params generalizing seen with
  | nil => exact iff_of_true rfl ⟨List.nodup_nil, fun _ => nofun⟩
  | cons param params ih =>
    rw [repeated?_cons, List.map_cons, List.nodup_cons, List.forall_mem_cons]
    split
    case isTrue hseen => exact iff_of_false nofun fun h => h.2.1 hseen
    case isFalse hseen =>
      rw [ih]
      simp only [List.mem_cons, not_or, List.mem_map, not_exists, not_and]
      constructor
      · rintro ⟨hnodup, hfresh⟩
        exact ⟨⟨fun other hother => (hfresh other hother).1, hnodup⟩, hseen,
          fun other hother => (hfresh other hother).2⟩
      · rintro ⟨⟨hfresh, hnodup⟩, -, hothers⟩
        exact ⟨hnodup, fun other hother => ⟨hfresh other hother, hothers other hother⟩⟩

theorem map_name_unplaced (params : List Parameter) :
    (params.map Parameter.unplaced).map (·.name) = params.map (·.name) := by
  rw [List.map_map]
  rfl

theorem reads_parameters {params : List Parameter} (h : ∀ param ∈ params, param.WellFormed) :
    Reads TokenKind.never (List.map Parameter.unplaced)
      (fun tokens => Reply.items ')' tokens fun rest _ => parameter rest)
      (Expr.separated (params.map (·.kinds)) ++ [.punctuation ')'])
      (params.map Parameter.unplaced) := by
  have hitems := reads_items ')' Parameter.unplaced parameter rfl (by decide)
    (params.map fun param => ⟨param.kinds, param.unplaced⟩) ?_ ?_
  · rw [List.map_map, List.map_map] at hitems
    exact hitems
  · intro item hitem
    obtain ⟨param, hparam, rfl⟩ := List.mem_map.1 hitem
    exact reads_parameter (h param hparam)
  · intro item hitem
    obtain ⟨param, hparam, rfl⟩ := List.mem_map.1 hitem
    refine ⟨param.mutability.marker, _, rfl, ?_⟩
    cases param.mutability <;> exact fun heq => nomatch heq

/-! ## Heads of functions -/

/-- The head of a function without its positions. -/
def Header.unplaced (head : Header) : Header :=
  ⟨head.name, head.params.map Parameter.unplaced, head.returnType.map DeclaredType.unplaced⟩

theorem reads_header {name : String} {params : List Parameter} {returnType : Option DeclaredType}
    (hparams : ∀ param ∈ params, param.WellFormed) (hnames : (params.map (·.name)).Nodup)
    (htype : DeclaredType.Fits .const returnType) (p : Position) :
    Reads TokenKind.annotates Header.unplaced (header p none)
      (.identifier name :: .punctuation '(' ::
        (Expr.separated (params.map (·.kinds)) ++ .punctuation ')' ::
          DeclaredType.kinds returnType))
      ⟨name, params.map Parameter.unplaced, returnType.map DeclaredType.unplaced⟩ := by
  intro tokens rest htokens hrest
  obtain ⟨token, tokens, rfl, htoken, htokens⟩ := exists_of_map_kind_eq_cons htokens
  obtain ⟨opening, tokens, rfl, hopening, htokens⟩ := exists_of_map_kind_eq_cons htokens
  obtain ⟨front, closing, behind, rfl, hfront, hclosing, hbehind⟩ :=
    exists_of_map_kind_eq_append htokens
  have hlist : (front ++ [closing]).map (·.kind) =
      Expr.separated (params.map (·.kinds)) ++ [.punctuation ')'] := by
    rw [List.map_append, hfront, List.map_singleton, hclosing]
  obtain ⟨params', hparams', houtcome⟩ := reads_parameters hparams (front ++ [closing])
    (behind ++ rest) hlist (startsNot_never _)
  obtain ⟨type', htype', houtcome'⟩ :=
    reads_optionalType htype (.punctuation '\x7b') behind rest hbehind hrest
  have hrepeated : repeated? [] params' = none := by
    refine repeated?_eq_none_iff.2 ⟨?_, fun _ _ hmem => nomatch hmem⟩
    rw [← map_name_unplaced, hparams', map_name_unplaced]
    exact hnames
  refine ⟨⟨name, params', type'⟩, ?_, ?_⟩
  · unfold Header.unplaced
    rw [hparams', htype']
  · rw [List.append_assoc, List.singleton_append, ← List.cons_append, ← List.append_assoc]
      at houtcome
    refine Reply.outcome_andThen (outcome_identifier htoken) fun _ => ?_
    refine Reply.outcome_andThen (outcome_mark hopening) fun _ => ?_
    refine Reply.outcome_andThen houtcome fun _ => ?_
    rw [hrepeated]
    refine Reply.outcome_andThen houtcome' fun _ => ?_
    rfl

end Grammar

end Arrow
