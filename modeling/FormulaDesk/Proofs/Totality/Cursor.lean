import FormulaDesk.Proofs.Reading.Adequacy

/-! # A cursor over tokens

Reading with one cursor that only moves forward. Every step that takes a token, the last node of a
list or an entry of a table can fail where there is none, and gives a fault there. A loop spends a
unit of fuel on every round and hands the rest to the calls inside. Where the fuel is used up it has
not returned, which is a result of its own: nothing is made up for it.

`Runs` says that a step returns. It is built up along a program, one lemma for each way of putting
steps together.
-/

namespace FormulaDesk.Markup

/-- What can be missing. -/
inductive Fault where
  | noCharacter
  | noToken
  | noNode
  | unlisted (name : String)
deriving DecidableEq, Repr

/-- A computation that may fail and may not return. -/
abbrev Attempt := ExceptT Fault Option

/-- What a loop gives without fuel: it has neither returned nor failed. -/
def unfinished {α : Type} : Attempt α := ExceptT.mk none

structure Cursor where
  tokens : List Token
  position : Nat
  /-- The levels of grouping around the cursor. -/
  depth : Nat
  /-- The positions of the tokens taken so far, last first. -/
  passed : List Nat
deriving DecidableEq, Repr

abbrev Reader := StateT Cursor Attempt

/-- The cursor before the first token. -/
def Cursor.start (tokens : List Token) : Cursor := ⟨tokens, 0, 0, []⟩

namespace Reader

def peek : Reader (Option Token) := do
  let cursor ← get
  return cursor.tokens[cursor.position]?

/-- Takes the token at the cursor. -/
def advance : Reader Token := do
  let cursor ← get
  match cursor.tokens[cursor.position]? with
  | none => throw .noToken
  | some t =>
    set { cursor with
      position := cursor.position + 1
      passed := cursor.position :: cursor.passed }
    return t

example : advance.run (Cursor.start []) = throw .noToken := rfl

/-- Moves over the token at the cursor. -/
def skip : Reader Unit := do
  let _ ← advance
  return ()

/-- Takes the last of the nodes read so far, which are in `acc`, last first. -/
def popNode : List Node → Reader (Node × List Node)
  | [] => throw .noNode
  | node :: acc => return (node, acc)

/-- The function with a listed name. -/
def functionNamed (name : String) : Reader Fn :=
  match Fn.ofCommand? name with
  | some fn => return fn
  | none => throw (.unlisted name)

def enter : Reader Unit := modify fun cursor => { cursor with depth := cursor.depth + 1 }

def leave : Reader Unit := modify fun cursor => { cursor with depth := cursor.depth - 1 }

/-! ## Runs -/

/-- The step returns `a` and takes the cursor from `c` to `c'`. -/
def Runs {α : Type} (step : Reader α) (c : Cursor) (a : α) (c' : Cursor) : Prop :=
  step.run c = some (.ok (a, c'))

variable {α β : Type} {step : Reader α} {next : α → Reader β} {c c' c'' : Cursor} {a : α} {b : β}

theorem Runs.pure (a : α) (c : Cursor) : Runs (pure a) c a c := rfl

/-- One step after another: the second begins where the first ended. -/
theorem Runs.bind (h : Runs step c a c') (hnext : Runs (next a) c' b c'') :
    Runs (step >>= next) c b c'' := by
  rw [Runs, StateT.run_bind, h]
  exact hnext

theorem runs_enter (c : Cursor) : Runs enter c () { c with depth := c.depth + 1 } := rfl

theorem runs_leave (c : Cursor) : Runs leave c () { c with depth := c.depth - 1 } := rfl

theorem runs_get (c : Cursor) : Runs get c c c := rfl

/-! ## A cursor at a piece of the tokens -/

variable {tokens ts : List Token} {t : Token} {depth : Nat}

/-- The cursor that stands before `ts` and has taken all tokens before them, each once. -/
def standing (tokens ts : List Token) (depth : Nat) : Cursor where
  tokens := tokens
  position := tokens.length - ts.length
  depth := depth
  passed := (List.range (tokens.length - ts.length)).reverse

/-- The cursor starts in front of all its tokens. -/
theorem start_eq (tokens : List Token) : Cursor.start tokens = standing tokens tokens 0 := by
  simp [Cursor.start, standing]

/-- The token at the index of a cursor is the first of those left. -/
theorem getElem?_suffix (h : ts <:+ tokens) : tokens[tokens.length - ts.length]? = ts.head? := by
  obtain ⟨before, rfl⟩ := h
  simp [List.getElem?_append_right, List.head?_eq_getElem?]

/-- Looking ahead moves nothing. -/
theorem runs_peek (h : ts <:+ tokens) :
    Runs peek (standing tokens ts depth) ts.head? (standing tokens ts depth) := by
  rw [← getElem?_suffix h]
  rfl

/-- Where a token is left, it can be taken. -/
theorem runs_advance (h : t :: ts <:+ tokens) :
    Runs advance (standing tokens (t :: ts) depth) t (standing tokens ts depth) := by
  have htoken : tokens[tokens.length - (t :: ts).length]? = some t := getElem?_suffix h
  have hlength : tokens.length - ts.length = tokens.length - (t :: ts).length + 1 := by
    have hle := h.length_le
    simp only [List.length_cons] at hle ⊢
    omega
  have hnext : standing tokens ts depth = { standing tokens (t :: ts) depth with
      position := tokens.length - (t :: ts).length + 1
      passed := (tokens.length - (t :: ts).length)
        :: (standing tokens (t :: ts) depth).passed } := by
    simp only [standing, hlength, List.range_succ, List.reverse_append, List.reverse_cons,
      List.reverse_nil, List.nil_append, List.singleton_append]
  rw [hnext]
  refine (runs_get _).bind ?_
  simp only [standing, htoken]
  rfl

/-- Skipping passes one token. -/
theorem runs_skip (h : t :: ts <:+ tokens) :
    Runs skip (standing tokens (t :: ts) depth) () (standing tokens ts depth) :=
  (runs_advance h).bind (Runs.pure () _)

theorem runs_popNode_cons (node : Node) (acc : List Node) (c : Cursor) :
    Runs (popNode (node :: acc)) c (node, acc) c := rfl

/-- Where there is a node, the last one can be taken. -/
theorem runs_popNode {acc : List Node} (h : acc.isEmpty = false) (c : Cursor) :
    ∃ node, acc.head? = some node ∧ Runs (popNode acc) c (node, acc.tail) c := by
  cases acc with
  | nil => simp at h
  | cons node acc => exact ⟨node, rfl, runs_popNode_cons node acc c⟩

/-- The lookup of a function's name succeeds for the names the reader passes to it. -/
theorem runs_functionNamed {name : String} {fn : Fn} (h : Fn.ofCommand? name = some fn)
    (c : Cursor) : Runs (functionNamed name) c fn c := by
  rw [functionNamed, h]
  rfl

end Reader

end FormulaDesk.Markup
