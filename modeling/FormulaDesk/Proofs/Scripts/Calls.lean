import FormulaDesk.Proofs.Dialect.Parts
import FormulaDesk.Proofs.Reading.Compositional

/-! # A function with a script

A function with one script in braces and an argument in parentheses, where script and argument are
any well-nested markup. Both are read there as they are read alone (`ofMarkup_scripted`).
-/

namespace FormulaDesk.Markup

/-- Where a script stands. -/
inductive Height where
  | lower
  | upper
deriving DecidableEq, Repr

def Height.mark : Height → String
  | .lower => "_"
  | .upper => "^"

/-- A function with a script, applied to `a`. -/
def scripted (fn : Fn) (height : Height) (script a : String) : String :=
  commandOf fn.command ++ (height.mark ++ braced script ++ leftRight a)

/-- A function applied to `a`. -/
def applied (fn : Fn) (a : String) : String := commandOf fn.command ++ leftRight a

/-- The node of a function with a script, from the nodes of the script and of the argument. -/
def scriptedNode (fn : Fn) (height : Height) (script argument : List Node) : Node :=
  match height with
  | .lower => .function fn (some (.delimited "(" ")" argument)) (some (.group script)) none
  | .upper => .function fn (some (.delimited "(" ")" argument)) none (some (.group script))

variable {stops : Stops} {room : Nat} {fn : Fn} {height : Height} {m m' u after : List Token}
  {node : Node} {argument script power : Option Node} {e a : String}

/-! ## Tokens -/

/-- The tokens of an argument in parentheses that grow with it. -/
def leftRightTokens (m u : List Token) : List Token :=
  .command "left" :: .char '(' :: (m ++ .command "right" :: .char ')' :: u)

/-- The tokens of a group in braces. -/
def bracedTokens (m u : List Token) : List Token := .char '{' :: (m ++ .char '}' :: u)

def Height.token : Height → Token
  | .lower => .char '_'
  | .upper => .char '^'

/-- The tokens of markup between `\left(` and `\right)`. -/
theorem scan_leftRight (ha : NestedMarkup a) :
    Token.scan none (leftRight a).toList = leftRightTokens (Token.ofString a) [] :=
  ofString_leftRight ha

/-- A function's command is one token when no letter follows it. -/
theorem scan_fn (fn : Fn) {cs : List Char}
    (hcs : ∀ c, cs.head? = some c → Text.isAsciiLetter c = false) :
    Token.scan none ('\\' :: (fn.command.toList ++ cs))
      = .command fn.command :: Token.scan none cs := by
  obtain ⟨hne, hletters, -⟩ := fn_command_facts fn
  exact scan_command hne hletters hcs

/-- The tokens of a function with an argument. -/
theorem ofString_applied (fn : Fn) (ha : NestedMarkup a) :
    Token.ofString (applied fn a)
      = .command fn.command :: leftRightTokens (Token.ofString a) [] := by
  have hlist : (applied fn a).toList
      = '\\' :: (fn.command.toList ++ (leftRight a).toList) := by
    simp [applied, commandOf]
  have hends : ∀ c, (leftRight a).toList.head? = some c → Text.isAsciiLetter c = false := by
    intro c hc
    have hslash : '\\' = c := by simpa [leftRight] using hc
    exact hslash ▸ by decide
  rw [Token.ofString, hlist, scan_fn fn hends, scan_leftRight ha]

/-- The tokens of a function with a script and an argument. -/
theorem ofString_scripted (fn : Fn) (height : Height) (he : NestedMarkup e)
    (ha : NestedMarkup a) :
    Token.ofString (scripted fn height e a) = .command fn.command :: height.token
      :: bracedTokens (Token.ofString e) (leftRightTokens (Token.ofString a) []) := by
  have hlist : (scripted fn height e a).toList = '\\' :: (fn.command.toList
      ++ (height.mark.toList ++ '{' :: (e.toList ++ '}' :: (leftRight a).toList))) := by
    simp [scripted, commandOf, braced]
  -- the mark of the script ends the name of the function
  have hends : ∀ cs : List Char, ∀ c, (height.mark.toList ++ cs).head? = some c →
      Text.isAsciiLetter c = false := by
    intro cs c hc
    cases height with
    | lower =>
      have hmark : '_' = c := by simpa [Height.mark] using hc
      exact hmark ▸ by decide
    | upper =>
      have hmark : '^' = c := by simpa [Height.mark] using hc
      exact hmark ▸ by decide
  have hmark : ∀ cs, Token.scan none (height.mark.toList ++ '{' :: cs)
      = height.token :: .char '{' :: Token.scan none cs := by
    intro cs
    cases height <;> rfl
  rw [Token.ofString, hlist, scan_fn fn (hends _), hmark, he.scan_before (by decide),
    scan_char (by decide), scan_leftRight ha]
  rfl

/-! ## Taking a call apart -/

section

variable (hm : WellNested m) (hroom : room ≤ maxNesting)

include hm hroom

/-- An argument in `\left(` and `\right)` is read on its own. -/
theorem ReadsArgument.of_leftRight
    (h : ReadsArgument False stops room (leftRightTokens m u) argument after) :
    argument = some (.delimited "(" ")" (Node.ofTokens m)) ∧ after = u := by
  cases h with
  | ended hstop => exact absurd hstop (by rw [stops_eq_false_of_closer rfl]; decide)
  | other _ hopen => exact absurd hopen (by decide)
  | factors _ hopen => exact absurd hopen (by decide)
  | bracketed _ _ h =>
    obtain ⟨room', hroom', hnested⟩ := h.one_level_down rfl
      (endsOperand_eq_false_of_closer rfl)
    obtain ⟨rfl, rfl⟩ := hnested.of_left hm (by omega)
    exact ⟨rfl, rfl⟩

/-- A function takes the delimited argument behind it. -/
theorem ReadsFunction.of_leftRight
    (h : ReadsFunction False stops room fn script power (leftRightTokens m u) node after) :
    node = .function fn (some (.delimited "(" ")" (Node.ofTokens m))) script power ∧
      after = u := by
  have hskip : skipBlanks (leftRightTokens m u) = leftRightTokens m u := skipBlanks_cons rfl
  cases h with
  | script hskip' => rw [hskip] at hskip'; simp [leftRightTokens] at hskip'
  | power hskip' => rw [hskip] at hskip'; simp [leftRightTokens] at hskip'
  | argument _ _ h =>
    rw [hskip] at h
    obtain ⟨rfl, rfl⟩ := h.of_leftRight hm hroom
    exact ⟨rfl, rfl⟩

end

/-- A function takes the script behind it and the delimited argument behind that. -/
theorem ReadsFunction.of_scripted (hm : WellNested m) (hm' : WellNested m')
    (hroom : room ≤ maxNesting)
    (h : ReadsFunction False stops room fn none none
      (height.token :: bracedTokens m (leftRightTokens m' u)) node after) :
    node = scriptedNode fn height (Node.ofTokens m) (Node.ofTokens m') ∧ after = u := by
  have hskip : skipBlanks (height.token :: bracedTokens m (leftRightTokens m' u))
      = height.token :: bracedTokens m (leftRightTokens m' u) := by
    cases height <;> exact skipBlanks_cons (by decide)
  -- a script needs room of its own, so the operand in braces is read one level down
  have hgroup : ∀ {node middle},
      ReadsAtom False stops room true (bracedTokens m (leftRightTokens m' u)) node middle →
      node = .group (Node.ofTokens m) ∧ middle = leftRightTokens m' u := by
    intro node middle hnode
    obtain ⟨room', rfl⟩ := hnode.room_pos (by decide) rfl
    exact hnode.of_braces hm (by omega)
  cases h with
  | script hskip' hnode h =>
    rw [hskip, List.cons.injEq] at hskip'
    obtain ⟨htoken, rfl⟩ := hskip'
    obtain ⟨rfl, rfl⟩ := hgroup hnode
    obtain ⟨rfl, rfl⟩ := h.of_leftRight hm' hroom
    cases height with
    | lower => exact ⟨rfl, rfl⟩
    | upper => exact absurd htoken (by decide)
  | power hskip' hnode h =>
    rw [hskip, List.cons.injEq] at hskip'
    obtain ⟨htoken, rfl⟩ := hskip'
    obtain ⟨rfl, rfl⟩ := hgroup hnode
    obtain ⟨rfl, rfl⟩ := h.of_leftRight hm' hroom
    cases height with
    | lower => exact absurd htoken (by decide)
    | upper => exact ⟨rfl, rfl⟩
  | argument hscript hpower =>
    rw [hskip, List.head?_cons] at hscript hpower
    cases height with
    | lower => exact absurd rfl hscript
    | upper => exact absurd rfl hpower

/-- The command of a function is read as a function. -/
theorem ReadsNested.of_fn {single : Bool} {ts : List Token}
    (h : ReadsNested False stops room single (.command fn.command) ts node after) :
    ReadsFunction False stops room fn none none ts node after := by
  obtain ⟨-, -, -, hplain, hfn⟩ := fn_command_facts fn
  generalize ht : Token.command fn.command = t at h
  cases h with
  | function _ hfn' h =>
    rw [Token.command.injEq] at ht
    rw [← ht, hfn, Option.some.injEq] at hfn'
    exact hfn' ▸ h
  | command _ hfn' =>
    rw [Token.command.injEq] at ht
    rw [← ht, hfn] at hfn'
    simp at hfn'
  -- the other commands have structure of their own
  | _ => simp_all [isStructured]

/-! ## Reading -/

/-- A function command alone is read as what its scripts and argument give. -/
theorem ReadsSiblings.sole_function {ts : List Token} {nodes : List Node} {node' : Node}
    (h : ReadsSiblings False [] maxNesting [] (.command fn.command :: ts) nodes after)
    (hnode : ∀ {room node after}, room ≤ maxNesting →
      ReadsFunction False [] room fn none none ts node after → node = node' ∧ after = []) :
    nodes = [node'] := by
  obtain ⟨-, hletters, hright, -⟩ := fn_command_facts fn
  exact h.sole_operand rfl (startsOperand_command hright) (closer?_command hletters hright)
    fun hroom h => hnode hroom h.of_fn

/-- A function with an argument is one node over the argument's reading. -/
theorem ofMarkup_applied (ha : NestedMarkup a) (hlimit : WithinLimit (applied fn a)) :
    Node.ofMarkup (applied fn a)
      = [.function fn (some (.delimited "(" ")" (Node.ofMarkup a))) none none] := by
  have h := hlimit.reads
  rw [ofString_applied fn ha] at h
  exact h.sole_function fun hroom h => h.of_leftRight ha.nested hroom

/-- A function with a script is one node over the readings of script and argument. -/
theorem ofMarkup_scripted (he : NestedMarkup e) (ha : NestedMarkup a)
    (hlimit : WithinLimit (scripted fn height e a)) :
    Node.ofMarkup (scripted fn height e a)
      = [scriptedNode fn height (Node.ofMarkup e) (Node.ofMarkup a)] := by
  have h := hlimit.reads
  rw [ofString_scripted fn height he ha] at h
  exact h.sole_function fun hroom h => h.of_scripted he.nested ha.nested hroom

/-! ## The limit -/

/-- What is read in braces is read alone as well. -/
theorem ReadsAtom.reads_inside (hm : WellNested m) (hroom : room ≤ maxNesting)
    (h : ReadsAtom False stops room true (bracedTokens m u) node after) :
    ∃ nodes, ReadsSiblings False [] maxNesting [] m nodes [] := by
  obtain ⟨room', rfl, hnested⟩ := h.one_level_down (by decide) (endsOperand_eq_false_of_closer rfl)
  cases hnested with
  | group hinside =>
    have hstop : AtStop (.brace :: stops) (.char '}' :: u) := .cons rfl List.mem_cons_self
    obtain ⟨-, hany⟩ := hinside.anywhere m _ rfl hm hstop
    have halone := hany [] [] maxNesting (Or.inl rfl) (by omega)
    rw [List.append_nil] at halone
    exact ⟨_, halone⟩
  | number hnum => exact absurd hnum (by decide)
  | word _ hletter => exact absurd hletter (by decide)
  | text hopen => exact absurd rfl hopen.1

/-- The script of a function within the limit is within the limit on its own. -/
theorem ReadsFunction.reads_script (hm : WellNested m) (hroom : room ≤ maxNesting)
    (h : ReadsFunction False stops room fn none none (height.token :: bracedTokens m u) node
      after) :
    ∃ nodes, ReadsSiblings False [] maxNesting [] m nodes [] := by
  have hskip : skipBlanks (height.token :: bracedTokens m u) = height.token :: bracedTokens m u := by
    cases height <;> exact skipBlanks_cons (by decide)
  cases h with
  | script hskip' hnode _ =>
    rw [hskip, List.cons.injEq] at hskip'
    obtain ⟨-, rfl⟩ := hskip'
    exact hnode.reads_inside hm hroom
  | power hskip' hnode _ =>
    rw [hskip, List.cons.injEq] at hskip'
    obtain ⟨-, rfl⟩ := hskip'
    exact hnode.reads_inside hm hroom
  | argument hscript hpower =>
    rw [hskip, List.head?_cons] at hscript hpower
    cases height with
    | lower => exact absurd rfl hscript
    | upper => exact absurd rfl hpower

/-- A script within a call that keeps to the limit keeps to it. -/
theorem WithinLimit.of_scripted (he : NestedMarkup e) (ha : NestedMarkup a)
    (hlimit : WithinLimit (scripted fn height e a)) : WithinLimit e := by
  obtain ⟨-, hletters, hright, -⟩ := fn_command_facts fn
  have hcloser := closer?_command hletters hright
  have h := hlimit.reads
  rw [ofString_scripted fn height he ha] at h
  obtain ⟨node, middle, hatom, -⟩ :=
    h.first_operand (stops_eq_false_of_closer hcloser) rfl (startsOperand_command hright)
  obtain ⟨room, hroom, hnested⟩ := hatom.one_level_down rfl
    (endsOperand_eq_false_of_closer hcloser)
  exact hnested.of_fn.reads_script he.nested (by omega)

end FormulaDesk.Markup
