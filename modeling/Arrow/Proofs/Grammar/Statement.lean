import Arrow.Grammar.Statement
import Arrow.Proofs.Grammar.Declaration

/-!
# Reading printed statements

Every statement is read back as it was printed, up to a token that could continue it; a block ends
by itself, whatever follows.
-/

namespace Arrow

/-! ## How statements begin -/

/-- A token with which a statement begins. -/
def TokenKind.beginsStatement : TokenKind → Bool
  | keyword .elifWord => false
  | keyword .elseWord => false
  | keyword _ => true
  | identifier _ => true
  | _ => false

theorem TokenKind.continues_of_beginsStatement {kind : TokenKind} (h : kind.beginsStatement) :
    kind.continues = false := by
  cases kind with
  | keyword word => cases word <;> first | rfl | exact nomatch h
  | identifier name => rfl
  | number value => rfl
  | text content => rfl
  | comment => rfl
  | endOfInput => rfl
  | operator op => exact nomatch h
  | punctuation c => exact nomatch h

theorem TokenKind.ends_of_beginsExpr {kind : TokenKind} (h : kind.beginsExpr) :
    kind.ends = false := by
  cases kind with
  | punctuation c =>
    refine decide_eq_false fun hclosing => ?_
    rw [hclosing] at h
    exact nomatch h
  | endOfInput => exact nomatch h
  | _ => rfl

/-- An expression that opens with a call begins with a name and an opening bracket. -/
theorem Expr.exists_kinds_of_opensWithCall : ∀ expr : Expr, expr.opensWithCall →
    ∃ callee kinds, expr.kinds = .identifier callee :: .punctuation '(' :: kinds
  | call callee arguments _, _ => ⟨callee, _, rfl⟩
  | binary left op right _, h => by
    obtain ⟨callee, kinds, hkinds⟩ := left.exists_kinds_of_opensWithCall h
    rw [Expr.kinds, hkinds]
    exact ⟨callee, _, rfl⟩
  | index target selector _, h => by
    rw [opensWithCall, Bool.and_eq_true, Bool.not_eq_true'] at h
    obtain ⟨callee, kinds, hkinds⟩ := target.exists_kinds_of_opensWithCall h.2
    rw [Expr.kinds, h.1, hkinds]
    exact ⟨callee, _, rfl⟩
  | member target property _, h => by
    rw [opensWithCall, Bool.and_eq_true, Bool.not_eq_true'] at h
    obtain ⟨callee, kinds, hkinds⟩ := target.exists_kinds_of_opensWithCall h.2
    rw [Expr.kinds, h.1, hkinds]
    exact ⟨callee, _, rfl⟩

namespace Statement

theorem exists_kinds_eq_cons : ∀ statement : Statement, statement.WellFormed →
    ∃ kind kinds, statement.kinds = kind :: kinds ∧ kind.beginsStatement
  | declaration kind name type init _, _ => by
    refine ⟨kind.marker, _, rfl, ?_⟩
    cases kind <;> rfl
  | assignment _ _ _, _ => ⟨_, _, rfl, rfl⟩
  | function ⟨_, _, _, _, _⟩, _ => ⟨_, _, rfl, rfl⟩
  | returnValue _ _, _ => ⟨_, _, rfl, rfl⟩
  | expression expr _, h => by
    obtain ⟨callee, kinds, hkinds⟩ := expr.exists_kinds_of_opensWithCall h.2
    exact ⟨_, _, hkinds, rfl⟩
  | conditional [] _ _, h => absurd rfl h.1
  | conditional (⟨_, _⟩ :: _) _ _, _ => ⟨_, _, rfl, rfl⟩
  | whileLoop _ _ _, _ => ⟨_, _, rfl, rfl⟩
  | forLoop _ _ _ _ _, _ => ⟨_, _, rfl, rfl⟩

end Statement

/-! ## One step of the routines -/

namespace Grammar

variable {token : Token} {rest : List Token}

theorem outcome_statement_declaration {kind : Mutability} (h : token.kind = kind.marker) :
    (statement (token :: rest)).outcome =
      (declaration token.position kind none rest).outcome := by
  obtain ⟨_, text, p⟩ := token
  obtain rfl := h
  cases kind with
  | const =>
    unfold Mutability.marker
    rw [statement, Reply.outcome_upTo]
  | var =>
    unfold Mutability.marker
    rw [statement, Reply.outcome_upTo]

theorem outcome_statement_named {name : String} (h : token.kind = .identifier name) :
    (statement (token :: rest)).outcome = (named token.position (token :: rest)).outcome := by
  obtain ⟨_, text, p⟩ := token
  obtain rfl := h
  rw [statement]

theorem outcome_named_assign {p : Position} {name : String} {sign : Token} {value : Expr}
    {behind : List Token} (h : token.kind = .identifier name) (hname : Bindable name)
    (hsign : sign.kind = .operator .assign)
    (hvalue : (expression rest).outcome = (.ok value, behind)) :
    (named p (token :: sign :: rest)).outcome =
      (.ok (.assignment name value token.position), behind) := by
  obtain ⟨_, text, p'⟩ := sign
  obtain rfl := hsign
  unfold named
  dsimp only [List.tail_cons]
  refine Reply.outcome_andThen (outcome_bindingName h hname) fun _ => ?_
  refine Reply.outcome_andThen (outcome_operator rfl) fun _ => ?_
  dsimp only
  rw [Reply.outcome_upTo, Reply.outcome_map, hvalue]
  rfl

theorem outcome_named_call {p : Position} {opening : Token} {expr : Expr} {behind : List Token}
    (hopening : opening.kind = .punctuation '(')
    (hexpr : (expression (token :: opening :: rest)).outcome = (.ok expr, behind)) :
    (named p (token :: opening :: rest)).outcome = (.ok (.expression expr p), behind) := by
  obtain ⟨_, text, p'⟩ := opening
  obtain rfl := hopening
  unfold named
  change (Reply.map _ (expression (token :: ⟨.punctuation '(', text, p'⟩ :: rest))).outcome = _
  rw [Reply.outcome_map, hexpr]
  rfl

theorem startsWith_eq_false {kind : TokenKind} (h : token.kind ≠ kind) :
    startsWith kind (token :: rest) = false := by
  unfold startsWith
  exact decide_eq_false h

theorem outcome_statement_arrow {value : Expr} {next : Token} {behind : List Token}
    (h : token.kind = .keyword .arrow) (hnext : next.kind.ends = false)
    (hvalue : (expression (next :: rest)).outcome = (.ok value, behind)) :
    (statement (token :: next :: rest)).outcome =
      (.ok (.returnValue value token.position), behind) := by
  obtain ⟨_, text, p⟩ := token
  obtain rfl := h
  have hbrace : next.kind ≠ .punctuation '\x7d' := by
    intro heq
    rw [heq] at hnext
    exact nomatch hnext
  have hlast : next.kind ≠ .endOfInput := by
    intro heq
    rw [heq] at hnext
    exact nomatch hnext
  rw [statement, returned, startsWith_eq_false hbrace, startsWith_eq_false hlast]
  change (Reply.upTo (Reply.map _ (expression (next :: rest))) (Reply.length_le _)).outcome = _
  rw [Reply.outcome_upTo, Reply.outcome_map, hvalue]
  rfl

theorem outcome_statement_arrow_absent (h : token.kind = .keyword .arrow)
    (hrest : ∀ next ∈ rest.head?, next.kind.ends) :
    (statement (token :: rest)).outcome =
      (.ok (.returnValue (absent token.position) token.position), rest) := by
  obtain ⟨_, text, p⟩ := token
  obtain rfl := h
  have hends : (rest.isEmpty || startsWith (.punctuation '\x7d') rest ||
      startsWith .endOfInput rest) = true := by
    cases rest with
    | nil => rfl
    | cons next rest =>
      obtain ⟨kind, text', p'⟩ := next
      have hkind : kind.ends := hrest _ rfl
      cases kind with
      | punctuation c =>
        obtain rfl : c = '\x7d' := of_decide_eq_true hkind
        rfl
      | endOfInput => rfl
      | _ => exact nomatch hkind
  rw [statement, returned, if_pos hends]
  rfl

theorem outcome_statement_function {word : Option String} {head : Header} {body : List Statement}
    {inner behind : List Token} (h : token.kind = .keyword (.fn word))
    (hhead : (header token.position word rest).outcome = (.ok head, inner))
    (hbody : (block inner).outcome = (.ok body, behind)) :
    (statement (token :: rest)).outcome =
      (.ok (.function ⟨head.name, head.params, head.returnType, body, token.position⟩),
        behind) := by
  obtain ⟨_, text, p⟩ := token
  obtain rfl := h
  rw [statement]
  refine Reply.outcome_andThen hhead fun _ => ?_
  rw [Reply.outcome_upTo, Reply.outcome_map, hbody]
  rfl

theorem outcome_statement_while {condition : Expr} {body : List Statement} {behind : List Token}
    (h : token.kind = .keyword .whileWord)
    (hbranch : (branch rest).outcome = (.ok ⟨condition, body⟩, behind)) :
    (statement (token :: rest)).outcome =
      (.ok (.whileLoop condition body token.position), behind) := by
  obtain ⟨_, text, p⟩ := token
  obtain rfl := h
  rw [statement, whileLoop, Reply.outcome_upTo, Reply.outcome_map, hbranch]
  rfl

theorem outcome_statement_if {first : Branch} {others : List Branch}
    {otherwise : Option (List Statement)} {inner behind : List Token}
    (h : token.kind = .keyword .ifWord) (hfirst : (branch rest).outcome = (.ok first, inner))
    (hothers : (otherBranches inner).outcome = (.ok (others, otherwise), behind)) :
    (statement (token :: rest)).outcome =
      (.ok (.conditional (first :: others) otherwise token.position), behind) := by
  obtain ⟨_, text, p⟩ := token
  obtain rfl := h
  rw [statement, conditional]
  refine Reply.outcome_andThen hfirst fun _ => ?_
  rw [Reply.outcome_upTo, Reply.outcome_map, hothers]
  rfl

theorem skipArrow_cons (h : token.kind = .keyword .arrow) (tokens : List Token) :
    skipArrow (token :: tokens) = tokens := by
  have hstart : startsWith (.keyword .arrow) (token :: tokens) = true := decide_eq_true h
  unfold skipArrow
  rw [if_pos hstart]
  rfl

theorem outcome_statement_for {first second : Token} {init update : Statement}
    {condition : Expr} {body : List Statement} {rest₁ rest₂ rest₃ behind : List Token}
    (h : token.kind = .keyword .forWord)
    (hinit : (statement (skipArrow rest)).outcome = (.ok init, first :: rest₁))
    (hfirst : first.kind = .punctuation ';')
    (hcondition : (expression rest₁).outcome = (.ok condition, second :: rest₂))
    (hsecond : second.kind = .punctuation ';')
    (hupdate : (statement rest₂).outcome = (.ok update, rest₃))
    (hbody : (block rest₃).outcome = (.ok body, behind)) :
    (statement (token :: rest)).outcome =
      (.ok (.forLoop init condition update body token.position), behind) := by
  obtain ⟨_, text, p⟩ := token
  obtain rfl := h
  rw [statement, forLoop]
  refine Reply.outcome_andThen hinit fun _ => ?_
  refine Reply.outcome_andThen (outcome_mark hfirst) fun _ => ?_
  refine Reply.outcome_andThen hcondition fun _ => ?_
  refine Reply.outcome_andThen (outcome_mark hsecond) fun _ => ?_
  refine Reply.outcome_andThen hupdate fun _ => ?_
  rw [Reply.outcome_upTo, Reply.outcome_map, hbody]
  rfl

theorem outcome_block {body : List Statement} {behind : List Token}
    (h : token.kind = .punctuation '\x7b')
    (hbody : (statements rest).outcome = (.ok body, behind)) :
    (block (token :: rest)).outcome = (.ok body, behind) := by
  rw [block]
  refine Reply.outcome_andThen (outcome_mark h) fun _ => ?_
  rw [Reply.outcome_upTo, hbody]

theorem outcome_statements_nil (h : token.kind = .punctuation '\x7d') :
    (statements (token :: rest)).outcome = (.ok [], rest) := by
  obtain ⟨_, text, p⟩ := token
  obtain rfl := h
  rw [statements]
  rfl

theorem outcome_statements_of_begins (h : token.kind.beginsStatement) :
    (statements (token :: rest)).outcome = ((statement (token :: rest)).andThen fun first mid h =>
      ((statements mid).map (first :: ·)).upTo (Nat.le_of_lt h)).outcome := by
  rw [statements]
  · rintro text p rest' heq
    obtain ⟨rfl, -⟩ := List.cons.inj heq
    cases h
  · exact List.cons_ne_nil _ _
  · rintro text p rest' heq
    obtain ⟨rfl, -⟩ := List.cons.inj heq
    cases h

theorem outcome_statements_cons {first : Statement} {others : List Statement}
    {inner behind : List Token} (hstart : token.kind.beginsStatement)
    (hfirst : (statement (token :: rest)).outcome = (.ok first, inner))
    (hothers : (statements inner).outcome = (.ok others, behind)) :
    (statements (token :: rest)).outcome = (.ok (first :: others), behind) := by
  refine (outcome_statements_of_begins hstart).trans ?_
  refine Reply.outcome_andThen hfirst fun _ => ?_
  rw [Reply.outcome_upTo, Reply.outcome_map, hothers]
  rfl

theorem outcome_branch {condition : Expr} {body : List Statement} {inner behind : List Token}
    (hcondition : (expression (skipArrow rest)).outcome = (.ok condition, inner))
    (hbody : (block inner).outcome = (.ok body, behind)) :
    (branch rest).outcome = (.ok ⟨condition, body⟩, behind) := by
  rw [branch]
  refine Reply.outcome_andThen hcondition fun _ => ?_
  rw [Reply.outcome_upTo, Reply.outcome_map, hbody]
  rfl

theorem outcome_otherBranches_elif {first : Branch} {others : List Branch}
    {otherwise : Option (List Statement)} {inner behind : List Token}
    (h : token.kind = .keyword .elifWord) (hfirst : (branch rest).outcome = (.ok first, inner))
    (hothers : (otherBranches inner).outcome = (.ok (others, otherwise), behind)) :
    (otherBranches (token :: rest)).outcome = (.ok (first :: others, otherwise), behind) := by
  obtain ⟨_, text, p⟩ := token
  obtain rfl := h
  rw [otherBranches]
  refine Reply.outcome_andThen hfirst fun _ => ?_
  rw [Reply.outcome_upTo, Reply.outcome_map, hothers]
  rfl

theorem outcome_otherBranches_else {body : List Statement} {behind : List Token}
    (h : token.kind = .keyword .elseWord)
    (hbody : (block rest).outcome = (.ok body, behind)) :
    (otherBranches (token :: rest)).outcome = (.ok ([], some body), behind) := by
  obtain ⟨_, text, p⟩ := token
  obtain rfl := h
  rw [otherBranches, Reply.outcome_upTo, Reply.outcome_map, hbody]
  rfl

theorem outcome_otherBranches_stops (h : StartsNot TokenKind.branches rest) :
    (otherBranches rest).outcome = (.ok ([], none), rest) := by
  rw [otherBranches.eq_def]
  split
  case h_1 => cases startsNot_cons.1 h
  case h_2 => cases startsNot_cons.1 h
  case h_3 => rfl

end Grammar

/-! ## Reading statements -/

/-- A branch without its positions. -/
def Branch.unplaced (branch : Branch) : Branch :=
  ⟨branch.condition.unplaced, Statement.unplacedAll branch.body⟩

/-- The tokens of a branch behind the word that introduces it. -/
def Branch.kinds (branch : Branch) : List TokenKind :=
  .keyword .arrow :: (branch.condition.kinds ++ Statement.braced (Statement.kindsAll branch.body))

namespace Statement

/-- A statement is read back, unless what follows continues it. -/
def Readable (statement : Statement) : Prop :=
  Reads TokenKind.continues unplaced Grammar.statement statement.kinds statement.unplaced

/-- The statements of a block are read back, whatever follows the closing brace. -/
def BodyReadable (body : List Statement) : Prop :=
  Reads TokenKind.never unplacedAll Grammar.statements (kindsAll body ++ [.punctuation '\x7d'])
    (unplacedAll body)

theorem BodyReadable.block {body : List Statement} (h : BodyReadable body) :
    Reads TokenKind.never unplacedAll Grammar.block (braced (kindsAll body))
      (unplacedAll body) := by
  intro tokens rest htokens hrest
  obtain ⟨opening, inner, rfl, hopening, hinner⟩ := exists_of_map_kind_eq_cons htokens
  obtain ⟨read, hread, houtcome⟩ := h inner rest hinner hrest
  exact ⟨read, hread, Grammar.outcome_block hopening houtcome⟩

theorem bodyReadable_nil : BodyReadable [] := by
  intro tokens rest htokens _
  obtain ⟨closing, behind, rfl, hclosing, hbehind⟩ := exists_of_map_kind_eq_cons htokens
  obtain rfl := List.map_eq_nil_iff.1 hbehind
  exact ⟨[], rfl, Grammar.outcome_statements_nil hclosing⟩

/-- Tokens that begin with statements or with what may follow these do not continue a statement. -/
theorem startsNot_continues_of_kindsAll {body : List Statement} (hbody : AllWellFormed body)
    {last : TokenKind} (hlast : last.continues = false) {others : List TokenKind}
    {tokens : List Token} (htokens : tokens.map (·.kind) = kindsAll body ++ last :: others)
    (rest : List Token) : StartsNot TokenKind.continues (tokens ++ rest) := by
  cases body with
  | nil =>
    obtain ⟨token, behind, rfl, htoken, -⟩ := exists_of_map_kind_eq_cons htokens
    exact startsNot_cons.2 (by rw [htoken]; exact hlast)
  | cons statement body =>
    obtain ⟨kind, kinds, hkinds, hkind⟩ := statement.exists_kinds_eq_cons hbody.1
    rw [kindsAll, hkinds] at htokens
    obtain ⟨token, behind, rfl, htoken, -⟩ := exists_of_map_kind_eq_cons htokens
    apply startsNot_cons.2
    rw [htoken]
    exact TokenKind.continues_of_beginsStatement hkind

theorem bodyReadable_cons {statement : Statement} {body : List Statement}
    (hwell : statement.WellFormed) (hbody : AllWellFormed body) (h : statement.Readable)
    (hrest : BodyReadable body) : BodyReadable (statement :: body) := by
  intro tokens rest htokens hnever
  rw [kindsAll, List.append_assoc] at htokens
  obtain ⟨front, behind, rfl, hfront, hbehind⟩ := List.map_eq_append_iff.1 htokens
  obtain ⟨read, hread, houtcome⟩ := h front (behind ++ rest) hfront
    (startsNot_continues_of_kindsAll hbody rfl hbehind rest)
  obtain ⟨read', hread', houtcome'⟩ := hrest behind rest hbehind hnever
  refine ⟨read :: read', ?_, ?_⟩
  · rw [unplacedAll, unplacedAll, hread, hread']
  · obtain ⟨kind, kinds, hkinds, hkind⟩ := statement.exists_kinds_eq_cons hwell
    rw [hkinds] at hfront
    obtain ⟨token, front, rfl, htoken, -⟩ := exists_of_map_kind_eq_cons hfront
    rw [List.append_assoc]
    exact Grammar.outcome_statements_cons (by rw [htoken]; exact hkind) houtcome houtcome'

/-- A block continues nothing in front of it. -/
theorem startsNot_of_braced {test : TokenKind → Bool} (htest : test (.punctuation '\x7b') = false)
    {kinds : List TokenKind} {tokens : List Token} (htokens : tokens.map (·.kind) = braced kinds)
    (rest : List Token) : StartsNot test (tokens ++ rest) := by
  obtain ⟨opening, inner, rfl, hopening, -⟩ := exists_of_map_kind_eq_cons htokens
  exact startsNot_cons.2 (by rw [hopening]; exact htest)

/-! ### The forms of statements -/

theorem readable_declaration {kind : Mutability} {name : String} {type : Option DeclaredType}
    {init : Expr} (hname : Bindable name) (htype : DeclaredType.Fits kind type)
    (hinit : init.WellFormed) (p : Position) : (declaration kind name type init p).Readable := by
  intro tokens rest htokens hrest
  obtain ⟨marker, inner, rfl, hmarker, hinner⟩ := exists_of_map_kind_eq_cons htokens
  obtain ⟨read, hread, houtcome⟩ := Grammar.reads_declaration hname htype hinit marker.position
    inner rest hinner hrest
  refine ⟨read, hread, ?_⟩
  rw [List.cons_append, Grammar.outcome_statement_declaration hmarker]
  exact houtcome

theorem readable_assignment {name : String} {value : Expr} (hname : Bindable name)
    (hvalue : value.WellFormed) (p : Position) : (assignment name value p).Readable := by
  intro tokens rest htokens hrest
  obtain ⟨token, tokens, rfl, htoken, htokens⟩ := exists_of_map_kind_eq_cons htokens
  obtain ⟨sign, inner, rfl, hsign, hinner⟩ := exists_of_map_kind_eq_cons htokens
  obtain ⟨read, hread, houtcome⟩ := hvalue.reads inner rest hinner hrest
  refine ⟨assignment name read token.position, ?_, ?_⟩
  · rw [unplaced, unplaced, hread]
  · rw [List.cons_append, List.cons_append, Grammar.outcome_statement_named htoken]
    exact Grammar.outcome_named_assign htoken hname hsign houtcome

theorem readable_function {name : String} {params : List Parameter}
    {returnType : Option DeclaredType} {body : List Statement}
    (hparams : ∀ param ∈ params, param.WellFormed) (hnames : (params.map (·.name)).Nodup)
    (htype : DeclaredType.Fits .const returnType) (hbody : BodyReadable body) (p : Position) :
    (function ⟨name, params, returnType, body, p⟩).Readable := by
  intro tokens rest htokens _
  obtain ⟨marker, tokens, rfl, hmarker, htokens⟩ := exists_of_map_kind_eq_cons htokens
  have hsplit : tokens.map (·.kind) =
      (.identifier name :: .punctuation '(' ::
        (Expr.separated (params.map (·.kinds)) ++ .punctuation ')' ::
          DeclaredType.kinds returnType)) ++ braced (kindsAll body) := by
    rw [htokens, List.cons_append, List.cons_append, List.append_assoc, List.cons_append]
  obtain ⟨front, behind, rfl, hfront, hbehind⟩ := List.map_eq_append_iff.1 hsplit
  obtain ⟨head, hhead, houtcome⟩ := Grammar.reads_header hparams hnames htype marker.position front
    (behind ++ rest) hfront (startsNot_of_braced rfl hbehind rest)
  obtain ⟨read, hread, houtcome'⟩ := hbody.block behind rest hbehind (startsNot_never rest)
  refine ⟨function ⟨head.name, head.params, head.returnType, read, marker.position⟩, ?_, ?_⟩
  · obtain ⟨hname, hhead⟩ := Grammar.Header.mk.inj hhead
    rw [unplaced, unplaced, hread, hname, hhead.1, hhead.2]
  · rw [List.cons_append, List.append_assoc]
    exact Grammar.outcome_statement_function hmarker houtcome houtcome'

theorem readable_returnValue {value : Expr} (h : value.WellFormed) (p : Position) :
    (returnValue value p).Readable := by
  intro tokens rest htokens hrest
  obtain ⟨token, inner, rfl, htoken, hinner⟩ := exists_of_map_kind_eq_cons htokens
  obtain ⟨read, hread, houtcome⟩ := h.reads inner rest hinner hrest
  refine ⟨returnValue read token.position, ?_, ?_⟩
  · rw [unplaced, unplaced, hread]
  · obtain ⟨kind, kinds, hkinds, hkind⟩ := value.exists_kinds_eq_cons
    rw [hkinds] at hinner
    obtain ⟨next, inner, rfl, hnext, -⟩ := exists_of_map_kind_eq_cons hinner
    have hends : next.kind.ends = false := by
      rw [hnext]
      exact TokenKind.ends_of_beginsExpr hkind
    exact Grammar.outcome_statement_arrow htoken hends houtcome

theorem readable_expression {expr : Expr} (h : expr.WellFormed) (hopens : expr.opensWithCall)
    (p : Position) : (expression expr p).Readable := by
  intro tokens rest htokens hrest
  obtain ⟨read, hread, houtcome⟩ := h.reads tokens rest htokens hrest
  obtain ⟨callee, kinds, hkinds⟩ := expr.exists_kinds_of_opensWithCall hopens
  change tokens.map (·.kind) = expr.kinds at htokens
  rw [hkinds] at htokens
  obtain ⟨token, tokens, rfl, htoken, htokens⟩ := exists_of_map_kind_eq_cons htokens
  obtain ⟨opening, inner, rfl, hopening, -⟩ := exists_of_map_kind_eq_cons htokens
  refine ⟨expression read token.position, ?_, ?_⟩
  · rw [unplaced, unplaced, hread]
  · rw [List.cons_append, Grammar.outcome_statement_named htoken]
    exact Grammar.outcome_named_call hopening houtcome

end Statement

/-- A branch is read back, whatever follows its closing brace. -/
def Branch.Readable (branch : Branch) : Prop :=
  Reads TokenKind.never unplaced Grammar.branch branch.kinds branch.unplaced

theorem Branch.readable {condition : Expr} {body : List Statement}
    (hcondition : condition.WellFormed) (hbody : Statement.BodyReadable body) :
    (Branch.mk condition body).Readable := by
  intro tokens rest htokens hnever
  obtain ⟨arrow, tokens, rfl, harrow, htokens⟩ := exists_of_map_kind_eq_cons htokens
  obtain ⟨front, behind, rfl, hfront, hbehind⟩ := List.map_eq_append_iff.1 htokens
  obtain ⟨read, hread, houtcome⟩ := hcondition.reads front (behind ++ rest) hfront
    (Statement.startsNot_of_braced rfl hbehind rest)
  obtain ⟨read', hread', houtcome'⟩ := hbody.block behind rest hbehind hnever
  refine ⟨⟨read, read'⟩, ?_, ?_⟩
  · unfold Branch.unplaced
    rw [hread, hread']
  · rw [List.cons_append, List.append_assoc]
    rw [← Grammar.skipArrow_cons harrow (front ++ (behind ++ rest))] at houtcome
    exact Grammar.outcome_branch houtcome houtcome'

namespace Statement

theorem kindsBranches_cons (word : Keyword) (branch : Branch) (branches : List Branch) :
    kindsBranches word (branch :: branches) =
      .keyword word :: (branch.kinds ++ kindsBranches .elifWord branches) := by
  obtain ⟨condition, body⟩ := branch
  rw [kindsBranches, Branch.kinds, List.cons_append, List.append_assoc]

theorem unplacedBranches_cons (branch : Branch) (branches : List Branch) :
    unplacedBranches (branch :: branches) = branch.unplaced :: unplacedBranches branches := by
  obtain ⟨condition, body⟩ := branch
  rw [unplacedBranches, Branch.unplaced]

/-- The branches behind the first one and the block for when none applies are read back. -/
theorem reads_otherBranches {branches : List Branch} {otherwise : Option (List Statement)}
    (hbranches : ∀ branch ∈ branches, branch.Readable)
    (hotherwise : ∀ body ∈ otherwise, BodyReadable body) :
    Reads TokenKind.continues
      (fun (branches, otherwise) => (unplacedBranches branches, unplacedOtherwise otherwise))
      Grammar.otherBranches (kindsBranches .elifWord branches ++ kindsOtherwise otherwise)
      (unplacedBranches branches, unplacedOtherwise otherwise) := by
  induction branches with
  | nil =>
    intro tokens rest htokens hrest
    cases otherwise with
    | none =>
      obtain rfl := List.map_eq_nil_iff.1 htokens
      exact ⟨([], none), rfl, Grammar.outcome_otherBranches_stops
        (hrest.mono TokenKind.branches_of_continues)⟩
    | some body =>
      obtain ⟨word, inner, rfl, hword, hinner⟩ := exists_of_map_kind_eq_cons htokens
      obtain ⟨read, hread, houtcome⟩ :=
        (hotherwise body rfl).block inner rest hinner (startsNot_never rest)
      refine ⟨([], some read), ?_, Grammar.outcome_otherBranches_else hword houtcome⟩
      dsimp only
      rw [unplacedOtherwise, unplacedOtherwise, hread]
  | cons branch branches ih =>
    intro tokens rest htokens hrest
    rw [kindsBranches_cons, List.cons_append, List.append_assoc] at htokens
    obtain ⟨word, tokens, rfl, hword, htokens⟩ := exists_of_map_kind_eq_cons htokens
    obtain ⟨front, behind, rfl, hfront, hbehind⟩ := List.map_eq_append_iff.1 htokens
    obtain ⟨read, hread, houtcome⟩ := hbranches branch List.mem_cons_self front (behind ++ rest)
      hfront (startsNot_never _)
    obtain ⟨⟨others, otherwise'⟩, hothers, houtcome'⟩ :=
      ih (fun other hother => hbranches other (List.mem_cons_of_mem _ hother)) behind rest hbehind
        hrest
    obtain ⟨hothers, hotherwise'⟩ := Prod.mk.inj hothers
    refine ⟨(read :: others, otherwise'), ?_, ?_⟩
    · dsimp only
      rw [unplacedBranches_cons, unplacedBranches_cons, hread, hothers, hotherwise']
    · rw [List.cons_append, List.append_assoc]
      exact Grammar.outcome_otherBranches_elif hword houtcome houtcome'

theorem readable_conditional {first : Branch} {others : List Branch}
    {otherwise : Option (List Statement)} (hfirst : first.Readable)
    (hothers : ∀ branch ∈ others, branch.Readable)
    (hotherwise : ∀ body ∈ otherwise, BodyReadable body) (p : Position) :
    (conditional (first :: others) otherwise p).Readable := by
  intro tokens rest htokens hrest
  rw [kinds, kindsBranches_cons, List.cons_append, List.append_assoc] at htokens
  obtain ⟨word, tokens, rfl, hword, htokens⟩ := exists_of_map_kind_eq_cons htokens
  obtain ⟨front, behind, rfl, hfront, hbehind⟩ := List.map_eq_append_iff.1 htokens
  obtain ⟨read, hread, houtcome⟩ := hfirst front (behind ++ rest) hfront (startsNot_never _)
  obtain ⟨⟨others', otherwise'⟩, hread', houtcome'⟩ :=
    reads_otherBranches hothers hotherwise behind rest hbehind hrest
  obtain ⟨hothers', hotherwise'⟩ := Prod.mk.inj hread'
  refine ⟨conditional (read :: others') otherwise' word.position, ?_, ?_⟩
  · rw [unplaced, unplaced, unplacedBranches_cons, unplacedBranches_cons, hread, hothers',
      hotherwise']
  · rw [List.cons_append, List.append_assoc]
    exact Grammar.outcome_statement_if hword houtcome houtcome'

theorem readable_whileLoop {condition : Expr} {body : List Statement}
    (hcondition : condition.WellFormed) (hbody : BodyReadable body) (p : Position) :
    (whileLoop condition body p).Readable := by
  intro tokens rest htokens _
  obtain ⟨word, inner, rfl, hword, hinner⟩ := exists_of_map_kind_eq_cons htokens
  obtain ⟨⟨read, read'⟩, hread, houtcome⟩ := Branch.readable hcondition hbody inner rest hinner
    (startsNot_never rest)
  obtain ⟨hread, hread'⟩ := Branch.mk.inj hread
  refine ⟨whileLoop read read' word.position, ?_, Grammar.outcome_statement_while hword houtcome⟩
  dsimp only at hread hread'
  rw [unplaced, unplaced, hread, hread']

theorem readable_forLoop {init update : Statement} {condition : Expr} {body : List Statement}
    (hinit : init.Readable) (hcondition : condition.WellFormed) (hupdate : update.Readable)
    (hbody : BodyReadable body) (p : Position) :
    (forLoop init condition update body p).Readable := by
  intro tokens rest htokens _
  obtain ⟨word, tokens, rfl, hword, htokens⟩ := exists_of_map_kind_eq_cons htokens
  obtain ⟨arrow, tokens, rfl, harrow, htokens⟩ := exists_of_map_kind_eq_cons htokens
  obtain ⟨front₁, first, tokens, rfl, hfront₁, hfirst, htokens⟩ :=
    exists_of_map_kind_eq_append htokens
  obtain ⟨front₂, second, tokens, rfl, hfront₂, hsecond, htokens⟩ :=
    exists_of_map_kind_eq_append htokens
  obtain ⟨front₃, behind, rfl, hfront₃, hbehind⟩ := List.map_eq_append_iff.1 htokens
  obtain ⟨init', hinit', houtcome₁⟩ := hinit front₁
    (first :: (front₂ ++ second :: (front₃ ++ (behind ++ rest)))) hfront₁
    (startsNot_cons.2 (by rw [hfirst]; rfl))
  obtain ⟨condition', hcondition', houtcome₂⟩ := hcondition.reads front₂
    (second :: (front₃ ++ (behind ++ rest))) hfront₂ (startsNot_cons.2 (by rw [hsecond]; rfl))
  obtain ⟨update', hupdate', houtcome₃⟩ := hupdate front₃ (behind ++ rest) hfront₃
    (startsNot_of_braced rfl hbehind rest)
  obtain ⟨body', hbody', houtcome₄⟩ := hbody.block behind rest hbehind (startsNot_never rest)
  refine ⟨forLoop init' condition' update' body' word.position, ?_, ?_⟩
  · rw [unplaced, unplaced, hinit', hcondition', hupdate', hbody']
  · have hassoc : word :: arrow :: (front₁ ++ first :: (front₂ ++ second :: (front₃ ++ behind))) ++
        rest =
        word :: arrow ::
          (front₁ ++ first :: (front₂ ++ second :: (front₃ ++ (behind ++ rest)))) := by
      simp only [List.cons_append, List.append_assoc]
    rw [hassoc]
    rw [← Grammar.skipArrow_cons harrow
      (front₁ ++ first :: (front₂ ++ second :: (front₃ ++ (behind ++ rest))))] at houtcome₁
    exact Grammar.outcome_statement_for hword houtcome₁ hfirst houtcome₂ hsecond houtcome₃
      houtcome₄

mutual

/-- Every well-formed statement is read back as it was printed. -/
theorem readable_of_wellFormed : ∀ statement : Statement, statement.WellFormed → statement.Readable
  | declaration _ _ _ _ p, h => readable_declaration h.1 h.2.1 h.2.2 p
  | assignment _ _ p, h => readable_assignment h.1 h.2 p
  | function ⟨_, _, _, body, p⟩, h =>
    readable_function h.1 h.2.1 h.2.2.1 (bodyReadable_of_allWellFormed body h.2.2.2) p
  | returnValue _ p, h => readable_returnValue h p
  | expression _ p, h => readable_expression h.1 h.2 p
  | conditional [] _ _, h => absurd rfl h.1
  | conditional (⟨_, body⟩ :: others) otherwise p, h =>
    readable_conditional (Branch.readable h.2.1.1 (bodyReadable_of_allWellFormed body h.2.1.2.1))
      (readable_of_branchesWellFormed others h.2.1.2.2)
      (bodyReadable_of_otherwiseWellFormed otherwise h.2.2) p
  | whileLoop _ body p, h => readable_whileLoop h.1 (bodyReadable_of_allWellFormed body h.2) p
  | forLoop init _ update body p, h =>
    readable_forLoop (readable_of_wellFormed init h.1) h.2.1 (readable_of_wellFormed update h.2.2.1)
      (bodyReadable_of_allWellFormed body h.2.2.2) p

theorem bodyReadable_of_allWellFormed :
    ∀ body : List Statement, AllWellFormed body → BodyReadable body
  | [], _ => bodyReadable_nil
  | statement :: body, h =>
    bodyReadable_cons h.1 h.2 (readable_of_wellFormed statement h.1)
      (bodyReadable_of_allWellFormed body h.2)

theorem readable_of_branchesWellFormed :
    ∀ branches : List Branch, BranchesWellFormed branches → ∀ branch ∈ branches, branch.Readable
  | [], _ => fun _ hmem => nomatch hmem
  | ⟨_, body⟩ :: branches, h =>
    List.forall_mem_cons.2
      ⟨Branch.readable h.1 (bodyReadable_of_allWellFormed body h.2.1),
        readable_of_branchesWellFormed branches h.2.2⟩

theorem bodyReadable_of_otherwiseWellFormed :
    ∀ otherwise : Option (List Statement), OtherwiseWellFormed otherwise →
      ∀ body ∈ otherwise, BodyReadable body
  | none, _ => fun _ hmem => nomatch hmem
  | some body, h => fun _ hmem => Option.some.inj hmem ▸ bodyReadable_of_allWellFormed body h

end

end Statement

end Arrow
