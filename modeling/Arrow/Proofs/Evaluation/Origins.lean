import Arrow.Proofs.Evaluation.Layout

/-!
# Where errors stand

An error in a source text that is no sequence of tokens stands at one of its characters, an error
in reading the tokens at one of these, and an error in running the program at one in front of the
end of input; only a missing entry point stands nowhere (`RunsTo.error_standsIn`).

This is what parametricity says of a source text beside itself: all positions of its nodes are
positions of its tokens, and so are those of the errors that they raise.
-/

namespace Arrow

/-! ## Positions of tokens -/

theorem Position.ofPrefix_ne_unknown (before : List Char) : ofPrefix before ≠ unknown := by
  intro h
  have hline : 1 + before.count '\n' = 0 := congrArg Position.line h
  omega

theorem Lossless.position_ne_unknown {before source : List Char} {ts : List Token}
    (h : Lossless before source ts) : ∀ token ∈ ts, token.position ≠ .unknown := by
  induction h with
  | last _ =>
    intro token htoken
    obtain rfl := List.mem_singleton.1 htoken
    exact Position.ofPrefix_ne_unknown _
  | piece _ _ _ hposition _ ih =>
    refine List.forall_mem_cons.2 ⟨?_, ih⟩
    rw [hposition]
    exact Position.ofPrefix_ne_unknown _

/-- A text that is no sequence of tokens is wrong at one of its characters. -/
theorem exists_of_tokenize_error {source : String} {cause : LexError}
    (h : tokenize source = .error cause) :
    ∃ front c rest, source.toList = front ++ c :: rest ∧ cause.position = .ofPrefix front := by
  have hlossless := tokenize_lossless source
  rw [h] at hlossless
  obtain ⟨front, rest, tokens, rfl, hfront, -, hposition⟩ := hlossless
  cases hrest : rest.toList with
  | nil =>
    obtain rfl : rest = "" := String.toList_eq_nil_iff.1 hrest
    rw [String.append_empty, hfront] at h
    cases h
  | cons c behind => exact ⟨front.toList, c, behind, by rw [String.toList_append, hrest], hposition⟩

/-- The tokens of a program, beside themselves, with what is known of their positions. -/
theorem Token.allMoved_code {source : String} {ts : List Token} (h : tokenize source = .ok ts) :
    AllMoved (fun p _ => ∃ token ∈ ts, token.kind ≠ .endOfInput ∧ p = token.position)
      (fun p _ => ∃ token ∈ ts, p = token.position) (code ts) (code ts) := by
  have hlossless := tokenize_lossless source
  rw [h] at hlossless
  exact (allMoved_of_lossless hlossless (fun token htoken hkind => ⟨token, htoken, hkind, rfl⟩)
    fun token htoken => ⟨token, htoken, rfl⟩).code

/-! ## Positions of errors -/

/-- The error stands at a character or a token of the source text, or is one that stands nowhere. -/
def Error.StandsIn (source : String) : Error → Prop
  | .lex cause =>
    ∃ front c rest, source.toList = front ++ c :: rest ∧ cause.position = .ofPrefix front
  | .parse cause =>
    ∃ ts, tokenize source = .ok ts ∧ ∃ token ∈ ts, cause.position = token.position
  | .runtime cause =>
    (∃ fault, cause = .missingEntryPoint fault) ∨
      ∃ ts, tokenize source = .ok ts ∧
        ∃ token ∈ ts, token.kind ≠ .endOfInput ∧ cause.position? = some token.position

variable {source : String} {ts : List Token}

theorem Error.StandsIn.position?_ne_unknown {cause : Error} (h : cause.StandsIn source) :
    cause.position? ≠ some .unknown := by
  have htoken {ts : List Token} {token : Token} (hts : tokenize source = .ok ts)
      (hmem : token ∈ ts) : some token.position ≠ some .unknown := by
    have hlossless := tokenize_lossless source
    rw [hts] at hlossless
    exact fun heq => hlossless.position_ne_unknown token hmem (Option.some.inj heq)
  cases cause with
  | lex cause =>
    obtain ⟨front, c, rest, -, hposition⟩ := h
    exact fun heq => Position.ofPrefix_ne_unknown front (hposition ▸ Option.some.inj heq)
  | parse cause =>
    obtain ⟨ts, hts, token, hmem, hposition⟩ := h
    change some cause.position ≠ _
    rw [hposition]
    exact htoken hts hmem
  | runtime cause =>
    rcases h with ⟨fault, rfl⟩ | ⟨ts, hts, token, hmem, -, hposition⟩
    · exact nofun
    · change cause.position? ≠ _
      rw [hposition]
      exact htoken hts hmem

/-- An error in reading stands at the token that it has been found at. -/
theorem ParseError.standsIn {cause : ParseError} (hts : tokenize source = .ok ts)
    (h : parse ts = .error cause) : (Error.parse cause).StandsIn source := by
  have hparse := parse_moved (Token.allMoved_code hts)
  rw [h] at hparse
  cases hparse with
  | error hcause =>
    refine ⟨ts, hts, ?_⟩
    cases hcause.position? with
    | some hp =>
      rcases hp with ⟨token, hmem, -, hp⟩ | ⟨token, hmem, hp⟩
      · exact ⟨token, hmem, hp⟩
      · exact ⟨token, hmem, hp⟩

/-- An error in a run stands at a token of the program that is run. -/
theorem Program.standsIn_of_ending {σ : Type} [Console σ] {config : Config} {rounds : Nat}
    {console : σ} {program : Program} {cause : Error} (hts : tokenize source = .ok ts)
    (hparse : parse ts = .ok program)
    (h : (program.ending (.outermost config rounds) console).1.1 = .error (.error cause)) :
    cause.StandsIn source := by
  have hmoved := parse_moved (Token.allMoved_code hts)
  rw [hparse] at hmoved
  cases hmoved with
  | ok hprogram =>
    have hending := (Program.Moved.ending hprogram config rounds console).1
    rw [h] at hending
    cases hending with
    | error hhalt =>
      cases hhalt with
      | @error cause _ hcause =>
        have hposition : Option.Rel _ cause.position? cause.position? := hcause.position?
        cases hp : cause.position? with
        | none =>
          cases cause with
          | missingEntryPoint fault => exact .inl ⟨fault, rfl⟩
          | _ => cases hp
        | some p =>
          rw [hp] at hposition
          cases hposition with
          | some hp' =>
            obtain ⟨token, hmem, hkind, rfl⟩ := hp'
            exact .inr ⟨ts, hts, token, hmem, hkind, hp⟩

/-- Wherever a run fails, the error stands in the source text. -/
theorem RunsTo.error_standsIn {σ : Type} [Console σ] {config : Config}
    {console after : σ} {cause : Error} (h : RunsTo config source console (.error cause) after) :
    cause.StandsIn source ∧ cause.position? ≠ some .unknown := by
  obtain ⟨rounds, hrun⟩ := h
  have hstands : cause.StandsIn source := by
    cases hts : tokenize source with
    | error cause' =>
      unfold runSource at hrun
      rw [hts] at hrun
      obtain rfl : Error.lex cause' = cause := by cases hrun; rfl
      exact exists_of_tokenize_error hts
    | ok ts =>
      cases hparse : parse ts with
      | error cause' =>
        rw [conduct_runSource_of_parseError hts hparse] at hrun
        obtain rfl : Error.parse cause' = cause := by cases hrun; rfl
        exact ParseError.standsIn hts hparse
      | ok program =>
        rw [conduct_runSource_of_parse hts hparse] at hrun
        exact Program.standsIn_of_ending hts hparse (Prod.mk.inj hrun).1
  exact ⟨hstands, hstands.position?_ne_unknown⟩

/-- A variable that is not bound, in a call. -/
theorem runsTo_error_standsIn_of_unbound :
    let source := "<fn>f(n)\x7b->n-y\x7dprint(f(1))"
    let cause : Error := .runtime (.undefinedVariable "y" ⟨1, 14⟩)
    RunsTo .standard source (⟨[], ""⟩ : Transcript) (.error cause) ⟨[], ""⟩ ∧
      cause.StandsIn source ∧ cause.position? ≠ some .unknown := by
  intro source cause
  have hrun : RunsTo .standard source (⟨[], ""⟩ : Transcript) (.error cause) ⟨[], ""⟩ :=
    ⟨0, by cbv⟩
  exact ⟨hrun, hrun.error_standsIn⟩

end Arrow
