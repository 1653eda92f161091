import FormulaDesk.Text.CharClass
import FormulaDesk.Text.Quoted

/-!
# Reading a command line by its usage

A usage lists options and slots. Words that start with a dash are options, except a lone dash, a
negative number, a word with a blank in it, and everything after a double dash. A long option may be
cut short while it stays unambiguous; its value follows an equals sign or is the next word. Short
options may be joined, and the value of a short option may follow it directly. What nobody asked for
is kept as surplus. Complaints come in the order in which the words are taken.
-/

namespace FormulaDesk.CommandLine

/-- An option by its spellings, the shortest first. -/
structure Opt where
  names : List String
  takesValue : Bool := true
  /-- The complaint about a value that does not fit. -/
  complaint : String → Option String := fun _ => none
  /-- Options that cannot be given together with this one, by their first spelling. -/
  excludes : List String := []
  /-- Whether the option ends the reading. -/
  final : Bool := false

namespace Opt

/-- The first spelling, by which the option is known. -/
def key (o : Opt) : String := o.names.headD ""

/-- All spellings, as complaints name the option. -/
def title (o : Opt) : String := "/".intercalate o.names

end Opt

/-- A place for a word. -/
structure Slot where
  name : String
  complaint : String → Option String := fun _ => none
  /-- Whether the slot takes all that follows, options too. -/
  takesRest : Bool := false

structure Usage where
  program : String
  options : List Opt
  slots : List Slot := []

/-- Why a reading stops early. -/
inductive Stop where
  | misuse (program message : String)
  /-- An option that ends the reading, by its first spelling. -/
  | final (key : String)
deriving DecidableEq, Repr

/-- What was given: options with their values, slots with their words, what follows a slot that takes
the rest, and the surplus. -/
structure Given where
  options : List (String × String) := []
  slots : List (String × String) := []
  rest : List String := []
  surplus : List String := []
deriving Repr, Inhabited

namespace Given

/-- The last value of an option. -/
def option? (g : Given) (key : String) : Option String :=
  (g.options.reverse.find? (·.1 == key)).map (·.2)

/-- All values of an option, in order. -/
def values (g : Given) (key : String) : List String :=
  (g.options.filter (·.1 == key)).map (·.2)

def has (g : Given) (key : String) : Bool := g.options.any (·.1 == key)

def slot (g : Given) (name : String) : String := (g.slots.lookup name).getD ""

end Given

/-! ## Words -/

/-- An option as a word spells it, with a value that the word brings along: after an equals sign, or
glued to the option. -/
structure Spelling where
  option : Opt
  spelled : String
  value : Option String := none
  glued : Bool := false

inductive Word where
  | plain (s : String)
  /-- The double dash. -/
  | divider
  | option (s : Spelling)
  | unknown (s : String)

namespace Word

def text : Word → String
  | .plain s => s
  | .divider => "--"
  | .option s => s.spelled
  | .unknown s => s

def isOption : Word → Bool
  | .option _ => true
  | .unknown _ => true
  | _ => false

end Word

/-- Whether the characters after a dash are a number. -/
def isNumber (cs : List Char) : Bool :=
  let whole := cs.takeWhile Text.isDecimal
  match cs.dropWhile Text.isDecimal with
  | [] => !whole.isEmpty
  | ['\n'] => !whole.isEmpty
  | '.' :: rest =>
    let fraction := rest.takeWhile Text.isDecimal
    let after := rest.dropWhile Text.isDecimal
    !fraction.isEmpty && (after.isEmpty || after == ['\n'])
  | _ => false

/-- Splits at the first equals sign. -/
def splitEquals (cs : List Char) : List Char × Option (List Char) :=
  match cs.dropWhile (· != '=') with
  | _ :: value => (cs.takeWhile (· != '='), some value)
  | [] => (cs, none)

namespace Usage

variable (u : Usage)

/-- All spellings with their options, in order. -/
def spellings : List (String × Opt) :=
  u.options.flatMap fun o => o.names.map fun name => (name, o)

def find? (name : String) : Option Opt := (u.spellings.find? (·.1 == name)).map (·.2)

/-- The options that a word may be short for. -/
def candidates (word : List Char) : List Spelling :=
  match word with
  | '-' :: '-' :: _ =>
    let (head, value) := splitEquals word
    u.spellings.filterMap fun (name, o) =>
      if head.isPrefixOf name.toList then some ⟨o, name, value.map String.ofList, false⟩ else none
  | dash :: c :: rest =>
    u.spellings.filterMap fun (name, o) =>
      if name.toList = [dash, c] then some ⟨o, name, some (String.ofList rest), true⟩
      else if word.isPrefixOf name.toList then some ⟨o, name, none, false⟩
      else none
  | _ => []

def misuse {α : Type} (message : String) : Except Stop α := .error (.misuse u.program message)

/-- A complaint about an argument. -/
def misused {α : Type} (title message : String) : Except Stop α :=
  u.misuse ("argument " ++ title ++ ": " ++ message)

/-- What a word is, before the double dash. -/
def classify (word : String) : Except Stop Word :=
  let cs := word.toList
  match cs with
  | '-' :: body =>
    match u.find? word with
    -- a full spelling goes before all shortened ones
    | some o => .ok (.option ⟨o, word, none, false⟩)
    | none =>
      if body.isEmpty then .ok (.plain word)
      else
        let (head, value) := splitEquals cs
        match value, u.find? (String.ofList head) with
        | some value, some o =>
          .ok (.option ⟨o, String.ofList head, some (String.ofList value), false⟩)
        | _, _ =>
          match u.candidates cs with
          | [s] => .ok (.option s)
          | [] =>
            -- a word that no option begins with may still be a value
            if isNumber body || cs.contains ' ' then .ok (.plain word) else .ok (.unknown word)
          | several =>
            u.misuse ("ambiguous option: " ++ word ++ " could match "
              ++ ", ".intercalate (several.map (·.spelled)))
  | _ => .ok (.plain word)

/-- The words of a command line. -/
def words : List String → Except Stop (List (Word × String))
  | [] => .ok []
  | w :: rest =>
    -- nothing behind the double dash is looked at any more
    if w = "--" then .ok ((.divider, w) :: rest.map fun s => (.plain s, s))
    else do
      let first ← u.classify w
      return (first, w) :: (← words rest)

/-! ## Taking options -/

/-- Notes an option with its value, unless the value does not fit or another option excludes it. -/
def take (g : Given) (o : Opt) (value : Option String) : Except Stop Given :=
  match value.bind o.complaint with
  | some message => u.misused o.title message
  | none =>
    match u.options.find? (fun other => o.excludes.contains other.key && g.has other.key) with
    | some other => u.misused o.title ("not allowed with argument " ++ other.title)
    | none =>
      -- what stands before it has been checked by now
      if o.final then .error (.final o.key)
      else .ok { g with options := g.options ++ [(o.key, value.getD "")] }

/-- The value that is left of a word after one of its options, and whether it is glued. -/
def remainder (cs : List Char) : Option String × Bool :=
  match cs with
  | [] => (none, false)
  | '=' :: value => (some (String.ofList value), false)
  | value => (some (String.ofList value), true)

/-- The options that are joined in one word; the last may still need a value. Letters that are no
option end the word. -/
def unjoin : (fuel : Nat) → Spelling → Except Stop (List (Opt × Option String))
  | 0, s => .ok [(s.option, s.value)]
  | fuel + 1, s =>
    match s.value with
    | none => .ok [(s.option, none)]
    | some value =>
      if s.option.takesValue then .ok [(s.option, some value)]
      else
        match s.spelled.toList, value.toList with
        | dash :: second :: _, c :: more =>
          if second == '-' || !s.glued || c == '-' then ignored s.option value
          else
            let name := String.ofList [dash, c]
            match u.find? name with
            | none => .ok [(s.option, none)]
            | some o => do
              let (value, glued) := remainder more
              return (s.option, none) :: (← unjoin fuel ⟨o, name, value, glued⟩)
        | _, _ => ignored s.option value
where
  ignored (o : Opt) (value : String) : Except Stop (List (Opt × Option String)) :=
    u.misused o.title ("ignored explicit argument " ++ Text.quoted value)

/-- Takes options that need no further word. -/
def takeAll (g : Given) : List (Opt × Option String) → Except Stop Given
  | [] => .ok g
  | (o, value) :: rest => do takeAll (← u.take g o value) rest

/-- Takes the options of one word, the last of them with the next word if it needs a value. -/
def takeSpelling (g : Given) (s : Spelling) (rest : List (Word × String)) :
    Except Stop (Given × List (Word × String)) := do
  let joined ← u.unjoin ((s.value.getD "").length + 1) s
  match joined.getLast? with
  | none => return (g, rest)
  | some (o, value) =>
    if o.takesValue && value.isNone then
      match rest with
      | (.plain w, _) :: rest =>
        return (← u.takeAll g (joined.dropLast ++ [(o, some w)]), rest)
      | _ => u.misused o.title "expected one argument"
    else return (← u.takeAll g joined, rest)

/-! ## Taking words -/

/-- The word for the next slot, with the double dash around it, and what follows. -/
def slotWord? (words : List (Word × String)) : Option (String × List (Word × String)) :=
  let isDivider (w : Word × String) : Bool := match w.1 with | .divider => true | _ => false
  match words.dropWhile isDivider with
  | (.plain s, _) :: rest => some (s, rest.dropWhile isDivider)
  | _ => none

/-- Fills the next slot, if there is one and a word for it. -/
def fillSlot (g : Given) (slots : List Slot) (words : List (Word × String)) :
    Except Stop (Option (Given × List Slot × List (Word × String))) :=
  match slots, slotWord? words with
  | slot :: others, some (word, rest) =>
    let first := if slot.takesRest then (words.head?.map (·.2)).getD word else word
    match slot.complaint first with
    | some message => u.misused slot.name message
    | none =>
      let g := { g with slots := g.slots ++ [(slot.name, first)] }
      if slot.takesRest then .ok (some ({ g with rest := (words.drop 1).map (·.2) }, others, []))
      else .ok (some (g, others, rest))
  | _, _ => .ok none

/-- Takes words to the end; each step takes one of `fuel`. -/
def readWords : (fuel : Nat) → Given → List Slot → List (Word × String) →
    Except Stop (Given × List Slot)
  | 0, g, slots, _ => .ok (g, slots)
  | fuel + 1, g, slots, words =>
    match words with
    | (.option s, _) :: rest => do
      let (g, rest) ← u.takeSpelling g s rest
      readWords fuel g slots rest
    | (.unknown s, _) :: rest => readWords fuel { g with surplus := g.surplus ++ [s] } slots rest
    | words => do
      match ← u.fillSlot g slots words with
      | some (g, slots, rest) => readWords fuel g slots rest
      | none =>
        let before := words.takeWhile fun w => !w.1.isOption
        let rest := words.dropWhile fun w => !w.1.isOption
        let g := { g with surplus := g.surplus ++ before.map (·.2) }
        if rest.isEmpty then return (g, slots) else readWords fuel g slots rest

/-- Reads a command line. Every slot needs a word. -/
def read (args : List String) : Except Stop Given := do
  let words ← u.words args
  let (g, slots) ← u.readWords (words.length + 1) {} u.slots words
  if slots.isEmpty then return g
  else u.misuse ("the following arguments are required: "
    ++ ", ".intercalate (slots.map (·.name)))

end Usage

/-- The complaint about a value that is none of some choices. -/
def notAmong (choices : List String) (value : String) : Option String :=
  if choices.contains value then none
  else some ("invalid choice: " ++ Text.quoted value ++ " (choose from "
    ++ ", ".intercalate (choices.map Text.quoted) ++ ")")

end FormulaDesk.CommandLine
