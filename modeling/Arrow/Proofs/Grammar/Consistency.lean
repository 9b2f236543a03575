import Arrow.Proofs.Grammar.Arrival
import Arrow.Proofs.Grammar.Names

/-!
# Declarations are consistent

In a program that is parsed the parameters of a function have different names, conditionals have
branches, and what is declared with a constant type is constant. Behind the parameters of a function
the reader looks for a name that stands there twice, and refuses the first parameter whose name an
earlier one has (`Grammar.repeated?_eq_some_iff`, `Grammar.outcome_header`); wherever in a program
that is, the program is refused for it.
-/

namespace Arrow

/-- A name with this type is constant if the type is marked constant. -/
def Mutability.Respects (kind : Mutability) (type : Option DeclaredType) : Prop :=
  ∀ annotation ∈ type, annotation.constant → kind = .const

/--
The statement by itself has no parameter twice, at least one branch, and no variable with a constant
type.
-/
def Statement.Consistent : Statement → Prop
  | declaration kind _ type _ _ => kind.Respects type
  | function definition =>
    (definition.params.map (·.name)).Nodup ∧
      ∀ param ∈ definition.params, param.mutability.Respects param.type
  | conditional branches _ _ => branches ≠ []
  | _ => True

namespace Grammar

/-! ## Repeated names -/

/-- The first parameter with a name that an earlier one has. -/
def FirstRepeated (params : List Parameter) (param : Parameter) : Prop :=
  ∃ before after, params = before ++ param :: after ∧ (before.map (·.name)).Nodup ∧
    param.name ∈ before.map (·.name)

/-- The induction is on the parameters: the name of one that is passed over has been seen. -/
theorem repeated?_seen_eq_some_iff {params : List Parameter} {seen : List String}
    {param : Parameter} :
    repeated? seen params = some param ↔ ∃ before after, params = before ++ param :: after ∧
      repeated? seen before = none ∧ (param.name ∈ seen ∨ param.name ∈ before.map (·.name)) := by
  induction params generalizing seen with
  | nil => exact iff_of_false nofun fun ⟨_, _, h, _⟩ => nomatch List.append_eq_nil_iff.1 h.symm
  | cons first params ih =>
    rw [repeated?_cons]
    split
    case isTrue hseen =>
      constructor
      · rintro h
        obtain rfl := Option.some.inj h
        exact ⟨[], params, rfl, rfl, .inl hseen⟩
      · rintro ⟨before, after, hsplit, hbefore, -⟩
        cases before with
        | nil =>
          obtain ⟨rfl, -⟩ := List.cons.inj hsplit
          rfl
        | cons head before =>
          obtain ⟨rfl, -⟩ := List.cons.inj hsplit
          rw [repeated?_cons, if_pos hseen] at hbefore
          exact nomatch hbefore
    case isFalse hseen =>
      rw [ih]
      constructor
      · rintro ⟨before, after, rfl, hbefore, hname⟩
        refine ⟨first :: before, after, rfl, ?_, ?_⟩
        · rw [repeated?_cons, if_neg hseen]
          exact hbefore
        · rw [List.map_cons, List.mem_cons]
          rw [List.mem_cons] at hname
          rcases hname with (hname | hname) | hname
          · exact .inr (.inl hname)
          · exact .inl hname
          · exact .inr (.inr hname)
      · rintro ⟨before, after, hsplit, hbefore, hname⟩
        cases before with
        | nil =>
          obtain ⟨rfl, -⟩ := List.cons.inj hsplit
          exact absurd (hname.resolve_right List.not_mem_nil) hseen
        | cons head before =>
          obtain ⟨rfl, rfl⟩ := List.cons.inj hsplit
          rw [repeated?_cons, if_neg hseen] at hbefore
          refine ⟨before, after, rfl, hbefore, ?_⟩
          rw [List.map_cons, List.mem_cons] at hname
          rw [List.mem_cons]
          rcases hname with hname | hname | hname
          · exact .inl (.inr hname)
          · exact .inl (.inl hname)
          · exact .inr hname

theorem repeated?_nil_eq_none_iff {params : List Parameter} :
    repeated? [] params = none ↔ (params.map (·.name)).Nodup :=
  repeated?_eq_none_iff.trans (and_iff_left fun _ _ => List.not_mem_nil)

theorem repeated?_eq_some_iff {params : List Parameter} {param : Parameter} :
    repeated? [] params = some param ↔ FirstRepeated params param := by
  simp only [repeated?_seen_eq_some_iff, repeated?_nil_eq_none_iff, List.not_mem_nil, false_or,
    FirstRepeated]

/-! ## The head of a function -/

/-- An error of the routine is that of a token that is not what was expected. -/
def Expects {α : Type} {bound : Nat} : Reply α bound → Prop
  | .ok _ _ _ => True
  | .error cause _ => ∃ what found p, cause = .expected what found p

section

variable {α β : Type} {a b : Nat}

theorem expects_error (what : Expectation) (tokens rest : List Token) :
    Expects (.error (Reply.unexpected what tokens) rest : Reply α a) := by
  cases tokens <;> exact ⟨_, _, _, rfl⟩

theorem Expects.andThen {r : Reply α a} {f : α → (rest : List Token) → rest.length < a → Reply β b}
    (hr : Expects r) (hf : ∀ value rest h, Expects (f value rest h)) : Expects (r.andThen f) := by
  cases r with
  | ok value rest h => exact hf value rest h
  | error cause rest => exact hr

/-- What has been read without an error can be left out. -/
theorem Expects.after {r : Reply α a} {f : α → (rest : List Token) → rest.length < a → Reply β b}
    {value : α} {rest : List Token} (hr : r.outcome = (.ok value, rest))
    (hf : ∀ h, Expects (f value rest h)) : Expects (r.andThen f) := by
  cases r with
  | ok value' rest' h =>
    obtain ⟨hvalue, rfl⟩ := Prod.mk.inj hr
    obtain rfl := Except.ok.inj hvalue
    exact hf h
  | error cause rest' => exact nomatch (Prod.mk.inj hr).1

theorem Expects.map {r : Reply α a} (h : Expects r) (f : α → β) : Expects (r.map f) := by
  cases r <;> exact h

theorem Expects.upTo {r : Reply α a} (h : Expects r) (hle : a ≤ b) : Expects (r.upTo hle) := by
  cases r <;> exact h

theorem Expects.outcome_ne {r : Reply α a} (h : Expects r) (name : String) (p : Position) :
    r.outcome.1 ≠ .error (.duplicateParameter name p) := by
  cases r with
  | ok value rest hlt => exact nofun
  | error cause rest =>
    obtain ⟨what, found, q, rfl⟩ := h
    exact nofun

end

theorem expects_operator (op : Operator) (tokens : List Token) : Expects (operator op tokens) := by
  unfold operator
  split
  case h_1 => exact expects_error _ _ _
  case h_2 =>
    split
    case isTrue => trivial
    case isFalse => exact expects_error _ _ _

theorem expects_identifier (tokens : List Token) : Expects (identifier tokens) := by
  unfold identifier
  split
  case h_1 => trivial
  case h_2 => exact expects_error _ _ _

theorem expects_declaredType (tokens : List Token) : Expects (declaredType tokens) := by
  refine (expects_operator _ _).andThen fun _ _ _ => ?_
  refine (expects_identifier _).andThen fun (word, q) _ _ => ?_
  dsimp only
  split
  case isTrue =>
    refine (expects_identifier _).andThen fun _ _ _ => ?_
    exact (expects_operator _ _).andThen fun _ _ _ => trivial
  case isFalse => exact (expects_operator _ _).andThen fun _ _ _ => trivial

theorem expects_optionalType (known : Option DeclaredType) (what : Expectation)
    (tokens : List Token) : Expects (optionalType known what tokens) := by
  unfold optionalType
  split
  case isTrue =>
    split
    case isTrue => exact expects_error _ _ _
    case isFalse => exact ((expects_declaredType tokens).map _).upTo _
  case isFalse => trivial

/-- A name and the list of parameters up to its closing mark, as they follow a function's marker. -/
inductive ReadsParameters (params : List Parameter) (rest : List Token) : List Token → Prop
  | intro {name text text' p p' ts} :
      Derives (.items ')' .parameter) ts params rest →
      ReadsParameters params rest
        (⟨.identifier name, text, p⟩ :: ⟨.punctuation '(', text', p'⟩ :: ts)

section

variable {params : List Parameter} {ts rest : List Token} {p : Position} {word : Option String}

theorem outcome_header_of_repeated (h : ReadsParameters params rest ts) {param : Parameter}
    (hrepeated : repeated? [] params = some param) :
    (header p word ts).outcome =
      (.error (.duplicateParameter param.name param.position), rest) := by
  obtain ⟨hparams⟩ := h
  refine Reply.outcome_andThen (outcome_identifier rfl) fun _ => ?_
  refine Reply.outcome_andThen (outcome_mark rfl) fun _ => ?_
  refine Reply.outcome_andThen hparams.takes fun _ => ?_
  rw [hrepeated]
  rfl

theorem expects_header_of_distinct (h : ReadsParameters params rest ts)
    (hdistinct : repeated? [] params = none) : Expects (header p word ts) := by
  obtain ⟨hparams⟩ := h
  refine .after (outcome_identifier rfl) fun _ => ?_
  refine .after (outcome_mark rfl) fun _ => ?_
  refine .after hparams.takes fun _ => ?_
  rw [hdistinct]
  exact (expects_optionalType _ _ _).andThen fun _ _ _ => trivial

theorem header_refuses_iff (h : ReadsParameters params rest ts) {name : String} {q : Position} :
    (header p word ts).outcome.1 = .error (.duplicateParameter name q) ↔
      ∃ param, FirstRepeated params param ∧ name = param.name ∧ q = param.position := by
  simp only [← repeated?_eq_some_iff]
  cases hrepeated : repeated? [] params with
  | none =>
    exact iff_of_false ((expects_header_of_distinct h hrepeated).outcome_ne name q)
      fun ⟨_, hparam, _⟩ => nomatch hparam
  | some param =>
    rw [outcome_header_of_repeated h hrepeated]
    simp [eq_comm]

end

/-! ## Nodes -/

theorem settled_respects (kind : Mutability) (type : Option DeclaredType) :
    (settled kind type).Respects type := by
  rintro annotation htype hconstant
  obtain rfl := Option.mem_def.1 htype
  exact if_pos hconstant

section

variable {ts rest : List Token}

theorem Derives.respects_parameterName {kind : Mutability} {known : Option DeclaredType}
    {param : Parameter} (h : Derives (.parameterName kind known) ts param rest) :
    param.mutability.Respects param.type := by
  cases h with
  | parameterName _ _ => exact settled_respects _ _

theorem Derives.respects_parameter {param : Parameter}
    (h : Derives (.entry .parameter) ts param rest) : param.mutability.Respects param.type := by
  cases h with
  | parameter_const h => exact h.respects_parameterName
  | parameter_var h => exact h.respects_parameterName
  | parameter_plain h => exact h.respects_parameterName

theorem Derives.consistent_header {p : Position} {word : Option String} {head : Header}
    (h : Derives (.header p word) ts head rest) (body : List Statement) :
    (Statement.function ⟨head.name, head.params, head.returnType, body, p⟩).Consistent := by
  cases h with
  | header hparams hrepeated _ =>
    refine ⟨repeated?_nil_eq_none_iff.1 hrepeated, fun param hparam => ?_⟩
    obtain ⟨_, _, hderived⟩ := hparams.itemsDerived param hparam
    exact hderived.respects_parameter

end

theorem nodeRules_consistent : NodeRules (fun _ => True) Statement.Consistent where
  literal _ _ := trivial
  var _ _ := trivial
  not _ _ := trivial
  binary _ _ _ _ := trivial
  call _ _ _ := trivial
  array _ _ := trivial
  object _ _ := trivial
  index _ _ _ := trivial
  member _ _ _ := trivial
  declaration h := by
    cases h with
    | declaration_value _ _ _ => exact settled_respects _ _
    | declaration_absent _ _ _ => exact settled_respects _ _
  assignment _ _ _ := trivial
  function h body := h.consistent_header body
  returnValue _ _ := trivial
  expression _ _ := trivial
  conditional _ _ _ _ := List.cons_ne_nil _ _
  whileLoop _ _ _ := trivial
  forLoop _ _ _ _ _ := trivial

/-- A statement that is a function fails as the head of the function does. -/
theorem outcome_statement_of_header {ts rest : List Token} {word : Option String} {text : String}
    {p : Position} {cause : ParseError} (h : (header p word ts).outcome = (.error cause, rest)) :
    (statement (⟨.keyword (.fn word), text, p⟩ :: ts)).outcome = (.error cause, rest) := by
  rw [statement]
  exact Reply.outcome_andThen_error h

end Grammar

open Grammar

/--
All nodes of a program that is parsed are consistent. The head of a function, once its parameters
have been read, is refused for a repeated parameter if and only if two of them have one name; the
error is about the first of them whose name an earlier one has. Wherever reading arrives at such a
head, that is the error of the program.
-/
theorem parse_consistent (source : List Token) :
    (∀ program, parse source = .ok program →
      program.All (fun _ => True) Statement.Consistent) ∧
    ∀ params rest ts, ReadsParameters params rest ts → ∀ p word,
      ((∃ name q, (header p word ts).outcome.1 = .error (.duplicateParameter name q)) ↔
        ¬ (params.map (·.name)).Nodup) ∧
      (∀ name q, (header p word ts).outcome.1 = .error (.duplicateParameter name q) ↔
        ∃ param, FirstRepeated params param ∧ name = param.name ∧ q = param.position) ∧
      ∀ text, ArrivesInProgram (⟨.keyword (.fn word), text, p⟩ :: ts)
          (source.filter (!·.isComment)) →
        ∀ param, FirstRepeated params param →
          parse source = .error (.duplicateParameter param.name param.position) := by
  refine ⟨fun program h => nodeRules_consistent.all_of_parse h, ?_⟩
  intro params rest ts hparams p word
  refine ⟨?_, fun name q => header_refuses_iff hparams, ?_⟩
  · simp only [header_refuses_iff hparams]
    rw [← repeated?_nil_eq_none_iff, ← ne_eq, Option.ne_none_iff_exists']
    simp only [repeated?_eq_some_iff]
    constructor
    · rintro ⟨_, _, param, hparam, _⟩
      exact ⟨param, hparam⟩
    · rintro ⟨param, hparam⟩
      exact ⟨_, _, param, hparam, rfl, rfl⟩
  · intro text harrives param hparam
    have hheader : (header p word ts).outcome =
        (.error (.duplicateParameter param.name param.position), rest) :=
      outcome_header_of_repeated hparams (repeated?_eq_some_iff.2 hparam)
    exact harrives.parse_eq (outcome_statement_of_header hheader)

/-- In `<fn> g() { <fn> f(x, y, x)` the second `x` is refused. -/
theorem parse_consistent_of_nested_function :
    let param (name : String) (column : Nat) : Parameter := ⟨name, none, .var, ⟨1, column⟩⟩
    let ts : List Token := [⟨.keyword (.fn none), "<fn>", ⟨1, 1⟩⟩, ⟨.identifier "g", "g", ⟨1, 6⟩⟩,
      ⟨.punctuation '(', "(", ⟨1, 7⟩⟩, ⟨.punctuation ')', ")", ⟨1, 8⟩⟩,
      ⟨.punctuation '\x7b', "\x7b", ⟨1, 10⟩⟩, ⟨.keyword (.fn none), "<fn>", ⟨1, 12⟩⟩,
      ⟨.identifier "f", "f", ⟨1, 17⟩⟩, ⟨.punctuation '(', "(", ⟨1, 18⟩⟩,
      ⟨.identifier "x", "x", ⟨1, 19⟩⟩, ⟨.punctuation ',', ",", ⟨1, 20⟩⟩,
      ⟨.identifier "y", "y", ⟨1, 22⟩⟩, ⟨.punctuation ',', ",", ⟨1, 23⟩⟩,
      ⟨.identifier "x", "x", ⟨1, 25⟩⟩, ⟨.punctuation ')', ")", ⟨1, 26⟩⟩]
    ReadsParameters [param "x" 19, param "y" 22, param "x" 25] [] (ts.drop 6) ∧
      ArrivesInProgram (ts.drop 5) (ts.filter (!·.isComment)) ∧
      parse ts = .error (.duplicateParameter "x" ⟨1, 25⟩) := by
  intro param ts
  have hitems : Derives (.items ')' .parameter) (ts.drop 8)
      [param "x" 19, param "y" 22, param "x" 25] [] :=
    derives_items (fun _ _ _ _ h => derives_parameter h) (by decide) (by cbv)
  have hhead : Derives (.header ⟨1, 1⟩ none) (ts.drop 1) ⟨"g", [], none⟩ (ts.drop 4) :=
    derives_header (by cbv)
  have hparams : ReadsParameters [param "x" 19, param "y" 22, param "x" 25] [] (ts.drop 6) :=
    .intro hitems
  have harrives : ArrivesInProgram (ts.drop 5) (ts.filter (!·.isComment)) :=
    .first rfl (.function hhead (.block (.statements_first rfl .statement)))
  exact ⟨hparams, harrives, ((parse_consistent ts).2 _ _ _ hparams _ _).2.2 _ harrives _
    ⟨[param "x" 19, param "y" 22], [], rfl, by decide, by decide⟩⟩

end Arrow
