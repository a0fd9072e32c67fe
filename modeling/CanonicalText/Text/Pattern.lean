import CanonicalText.Text.Alphanumeric
import CanonicalText.Text.Decimal
import CanonicalText.Text.Whitespace

/-!
# Patterns

A pattern is a regular expression over the characters of a text. Patterns are only told from other texts
here; nothing is matched.

What would take a table of Unicode is no pattern: properties, the classes of digits, white space and word
characters, word boundaries, and letters of either case. A part that is over bytes instead of characters,
in `(?-u:)`, may have the latter ones, for ASCII. But it may not match bytes that make up no character, so
it has neither the dot nor anything that stands for all other bytes.
Nor are there counts, which come in braces: an opening brace stands only in a set or after a backslash.

* `Pattern.escape?` : what a backslash makes of the characters after it;
* `Pattern.set?` : sets in brackets;
* `Pattern.Reading.step?` : the rest, with a stack of the groups that are open;
* `isPattern` : whether a text is a pattern.
-/

namespace CanonicalText

namespace Pattern

structure Modes where
  /-- Letters stand for those of the other case too. -/
  anyCase : Bool
  /-- The pattern is over characters, not bytes. -/
  unicode : Bool
  /-- White space stands for nothing, and so does what stands between `#` and the end of a line. -/
  spaced : Bool

/-- Takes the white space and the comments off the front of a text. -/
def dropSpace : Bool → Text → Text
  | _, [] => []
  | true, c :: t => dropSpace (c != '\n') t
  | false, c :: t =>
    if isWhitespace c then dropSpace false t
    else if c = '#' then dropSpace true t
    else c :: t

def Modes.skip (m : Modes) (t : Text) : Text := if m.spaced then dropSpace false t else t

/-- How deep a list of parts goes: one deeper than the deepest, unless there is only one. -/
def joinedDepth : List Nat → Nat
  | [] => 0
  | [d] => d
  | ds => ds.foldr max 0 + 1

def depthLimit : Nat := 250

/-! ## Escapes -/

inductive Escape where
  | character (code : Nat)
  /-- A byte by its two hexadecimal digits, or the character of that code. -/
  | byte (code : Nat)
  /-- A class of digits, white space or word characters, or of all others. -/
  | charClass (negated : Bool)
  | wordBoundary
  | textBoundary

def hexDigits? (m : Modes) : Nat → Nat → Text → Option (Nat × Text)
  | 0, value, t => some (value, t)
  | n + 1, value, t =>
    match m.skip t with
    | [] => none
    | c :: t => (hexValue? c).bind fun d => hexDigits? m n (value * 16 + d) t

def hexCharacter? (m : Modes) (digits : Nat) (t : Text) : Option (Nat × Text) :=
  (hexDigits? m digits 0 t).filter fun r => Nat.isValidChar r.1

/-- Whether a backslash takes its meaning from the character or, if it has none, does nothing. -/
def standsForItself (c : Char) : Bool := c.toNat < 128 && !c.isAlphanum && c != '<' && c != '>'

def letterEscapes : List (Char × Nat) :=
  [('a', 0x7), ('f', 0xc), ('n', 0xa), ('r', 0xd), ('t', 0x9), ('v', 0xb)]

def escape? (m : Modes) : Text → Option (Escape × Text)
  | [] => none
  | c :: t =>
    if c = 'x' then (hexCharacter? m 2 t).map fun r => (.byte r.1, r.2)
    else if c = 'u' then (hexCharacter? m 4 t).map fun r => (.character r.1, r.2)
    else if c = 'U' then (hexCharacter? m 8 t).map fun r => (.character r.1, r.2)
    else if c = 'd' ∨ c = 's' ∨ c = 'w' then some (.charClass false, t)
    else if c = 'D' ∨ c = 'S' ∨ c = 'W' then some (.charClass true, t)
    else if c = 'b' ∨ c = 'B' ∨ c = '<' ∨ c = '>' then some (.wordBoundary, t)
    else if c = 'A' ∨ c = 'z' then some (.textBoundary, t)
    else if standsForItself c then some (.character c.toNat, t)
    else (letterEscapes.lookup c).map fun code => (.character code, t)

def Modes.allowsCharacter (m : Modes) : Bool := !(m.unicode && m.anyCase)

/-- Whether what follows a backslash may be part of a pattern. -/
def Modes.allows (m : Modes) : Escape → Bool
  | .character _ => m.allowsCharacter
  | .byte code => if m.unicode then m.allowsCharacter else code < 128
  | .charClass negated => !m.unicode && !negated
  | .wordBoundary => !m.unicode
  | .textBoundary => true

/-! ## Sets -/

/-- What is known of a set: how deep it goes, and whether it has members, as far as that matters. -/
structure Extent where
  inhabited : Bool
  depth : Nat

namespace Extent

def members : Extent := ⟨true, 0⟩

def union (items : List Extent) : Extent :=
  ⟨items.any (·.inhabited), joinedDepth (items.map (·.depth))⟩

end Extent

/-- Whether a character stands for an operation on two sets if it is written twice: what is in both, in
the left one only, or in one of them. -/
def isSetOperator (c : Char) : Bool := c == '&' || c == '-' || c == '~'

/-- What comes of an operation on two sets. Letters of either case are looked for in both sets first. -/
def Extent.operate? (m : Modes) (a b : Extent) : Option Extent :=
  if m.unicode && m.anyCase && (a.inhabited || b.inhabited) then none
  else some ⟨a.inhabited && b.inhabited, max a.depth b.depth + 1⟩

/-- A set of which the closing bracket has not been read. -/
structure OpenSet where
  negated : Bool
  items : List Extent
  /-- What stands to the left of an operation before the items. -/
  left : Option Extent

namespace OpenSet

def add (s : OpenSet) (item : Extent) : OpenSet := { s with items := item :: s.items }

/-- The set up to here, with what stands to the left. -/
def joined? (m : Modes) (s : OpenSet) : Option Extent :=
  match s.left with
  | some a => a.operate? m (.union s.items)
  | none => some (.union s.items)

def operate? (m : Modes) (s : OpenSet) : Option OpenSet :=
  (s.joined? m).map fun a => { s with items := [], left := some a }

def close? (m : Modes) (s : OpenSet) : Option Extent :=
  (s.joined? m).bind fun e =>
    let refused := if m.unicode then m.anyCase && e.inhabited else s.negated
    if refused then none else some ⟨s.negated || e.inhabited, e.depth + 1⟩

end OpenSet

def leadingHyphens (m : Modes) (s : OpenSet) : Nat → Text → OpenSet × Text
  | n + 1, '-' :: t => leadingHyphens m (s.add .members) n (m.skip t)
  | _, t => (s, t)

/-- Reads the beginning of a set after its bracket. A closing bracket that comes first is a member. -/
def openSet (m : Modes) (t : Text) : OpenSet × Text :=
  let (negated, t) := match m.skip t with
    | '^' :: t => (true, m.skip t)
    | t => (false, t)
  let (s, t) := leadingHyphens m ⟨negated, [], none⟩ t.length t
  match t with
  | ']' :: t' => if s.items.isEmpty then (s.add .members, m.skip t') else (s, t)
  | t => (s, t)

def asciiClasses : List String :=
  ["alnum", "alpha", "ascii", "blank", "cntrl", "digit", "graph", "lower", "print", "punct", "space",
    "upper", "word", "xdigit"]

/-- Reads a class of ASCII characters, such as `:alpha:]` or, for all others, `:^alpha:]`. The answer says
whether it is one of the latter. -/
def asciiClass? : Text → Option (Bool × Text)
  | ':' :: t =>
    let (negated, t) := match t with
      | '^' :: t => (true, t)
      | t => (false, t)
    let name := t.takeWhile (· ≠ ':')
    match t.drop name.length with
    | ':' :: ']' :: t =>
      if asciiClasses.contains (String.ofList name) then some (negated, t) else none
    | _ => none
  | _ => none

/-- Reads one member of a set, or one end of a range of them. -/
def setItem? (m : Modes) : Text → Option (Escape × Text)
  | [] => none
  | '\\' :: t => escape? m t
  | c :: t => some (.character c.toNat, t)

def memberCode? (m : Modes) : Escape → Option Nat
  | .character code => if m.unicode || code < 128 then some code else none
  | .byte code => if m.unicode || code < 128 then some code else none
  | _ => none

def allowsMember (m : Modes) : Escape → Bool
  | .charClass negated => m.allows (.charClass negated)
  | e => (memberCode? m e).isSome

/-- The next character after a hyphen, to tell what that is for. White space is passed over, and so is the
mark of a comment, but not the comment. -/
def Modes.afterHyphen? (m : Modes) (t : Text) : Option Char :=
  if m.spaced then
    match t.dropWhile isWhitespace with
    | '#' :: t => (t.dropWhile isWhitespace).head?
    | t => t.head?
  else t.head?

/-- Reads a member of a set or a range. A hyphen makes a range unless it stands before the end of the set
or before another hyphen. -/
def setRange? (m : Modes) (t : Text) : Option Text := do
  let (first, t) ← setItem? m t
  let t := m.skip t
  let single := if allowsMember m first then some t else none
  match t with
  | '-' :: rest =>
    let next := m.afterHyphen? rest
    if next = some ']' ∨ next = some '-' then single
    else
      let (last, rest) ← setItem? m (m.skip rest)
      let a ← memberCode? m first
      let b ← memberCode? m last
      if a ≤ b then some rest else none
  | _ => single

/-- Reads on in a set up to its end. The sets that it stands in come after it, from the inside out. -/
def setRest? (m : Modes) : Nat → OpenSet → List OpenSet → Text → Option (Nat × Text)
  | 0, _, _, _ => none
  | fuel + 1, s, outer, t =>
    match m.skip t with
    | [] => none
    | '[' :: t =>
      match asciiClass? t with
      | some (negated, t) =>
        if negated && !m.unicode then none else setRest? m fuel (s.add .members) outer t
      | none =>
        let (inner, t) := openSet m t
        setRest? m fuel inner (s :: outer) t
    | ']' :: t =>
      match s.close? m, outer with
      | none, _ => none
      | some e, [] => some (e.depth, t)
      | some e, parent :: outer => setRest? m fuel (parent.add e) outer t
    | c :: t =>
      if isSetOperator c ∧ t.head? = some c then
        (s.operate? m).bind fun s => setRest? m fuel s outer t.tail
      else (setRange? m (c :: t)).bind fun t => setRest? m fuel (s.add .members) outer t

/-- Reads a set after its bracket: how deep it goes, and what follows it. -/
def set? (m : Modes) (t : Text) : Option (Nat × Text) :=
  let (s, rest) := openSet m t
  setRest? m (t.length + 1) s [] rest

/-! ## Groups -/

def Modes.switch? (m : Modes) (on : Bool) (c : Char) : Option Modes :=
  if c = 'i' then some { m with anyCase := on }
  else if c = 'u' then some { m with unicode := on }
  else if c = 'x' then some { m with spaced := on }
  else if c = 'm' ∨ c = 's' ∨ c = 'U' ∨ c = 'R' then some m
  else none

/-- Reads the letters of switches up to a colon or a closing parenthesis, which is given back with the
rest. A letter comes once; a hyphen, after which they switch off, comes once and not at the end. -/
def switches? (m : Modes) (seen : Text) : Text → Option (Modes × Text × Text)
  | [] => none
  | c :: t =>
    if c = ':' ∨ c = ')' then
      if seen.head? = some '-' then none else some (m, seen, c :: t)
    else if seen.contains c then none
    else if c = '-' then switches? m (c :: seen) t
    else (m.switch? (!seen.contains '-') c).bind fun m => switches? m (c :: seen) t

def startsName (c : Char) : Bool := c == '_' || isAlphabetic c

def continuesName (c : Char) : Bool := c == '_' || c == '.' || c == '[' || c == ']' || isAlphanumeric c

def groupName? (t : Text) : Option (Text × Text) :=
  let name := t.takeWhile (· ≠ '>')
  match name, t.drop name.length with
  | c :: cs, '>' :: rest => if startsName c && cs.all continuesName then some (name, rest) else none
  | _, _ => none

/-! ## Patterns -/

/-- A part of a pattern that an operator may come after, or one that none may. -/
structure Item where
  depth : Nat
  repeatable : Bool

/-- What has been read of a pattern or of a group: the items of the last alternative, from right to left,
and how deep the other alternatives go. -/
structure Body where
  items : List Item
  branches : List Nat

namespace Body

def empty : Body := ⟨[], []⟩

def add (b : Body) (item : Item) : Body := { b with items := item :: b.items }

def branchDepth (b : Body) : Nat := joinedDepth (b.items.map (·.depth))

def branch (b : Body) : Body := ⟨[], b.branchDepth :: b.branches⟩

def depth (b : Body) : Nat := joinedDepth (b.branchDepth :: b.branches)

def repeat? (b : Body) : Option Body :=
  match b.items with
  | ⟨depth, true⟩ :: items => some { b with items := ⟨depth + 1, true⟩ :: items }
  | _ => none

end Body

structure Reading where
  modes : Modes
  body : Body
  /-- The bodies that the open groups stand in, from the inside out, with the modes to go back to. -/
  outer : List (Modes × Body)
  /-- The names of groups. -/
  names : List Text

namespace Reading

def start : Reading := ⟨⟨false, true, false⟩, .empty, [], []⟩

def leaf (r : Reading) : Reading := { r with body := r.body.add ⟨0, true⟩ }

def enter (r : Reading) (modes : Modes) : Reading :=
  { r with modes, body := .empty, outer := (r.modes, r.body) :: r.outer }

def leave? (r : Reading) : Option Reading :=
  match r.outer with
  | [] => none
  | (modes, body) :: outer =>
    some { r with modes, body := body.add ⟨r.body.depth + 1, true⟩, outer }

/-- Enters a group with a name, which no other group may have. -/
def enterNamed? (r : Reading) (t : Text) : Option (Reading × Text) :=
  match groupName? t with
  | some (name, rest) =>
    if r.names.contains name then none
    else some ({ r.enter r.modes with names := name :: r.names }, rest)
  | none => none

/-- Reads what stands between parentheses before the parts of a group: a name, switches or nothing.
Switches without a colon make up a part of their own. -/
def group? (r : Reading) (t : Text) : Option (Reading × Text) :=
  match r.modes.skip t with
  | '?' :: 'P' :: '<' :: t => r.enterNamed? t
  | '?' :: '<' :: t => r.enterNamed? t
  | '?' :: t =>
    match switches? r.modes [] t with
    | some (modes, _, ':' :: rest) => some (r.enter modes, rest)
    | some (modes, seen, _ :: rest) =>
      if seen.isEmpty then none
      else some ({ r with modes, body := r.body.add ⟨0, false⟩ }, rest)
    | _ => none
  | t => some (r.enter r.modes, t)

/-- Reads the part of a pattern that starts with the character, or an operator. -/
def step? (r : Reading) (c : Char) (t : Text) : Option (Reading × Text) :=
  match c with
  | '(' => r.group? t
  | ')' => r.leave?.map (·, t)
  | '|' => some ({ r with body := r.body.branch }, t)
  | '[' => (set? r.modes t).map fun s => ({ r with body := r.body.add ⟨s.1, true⟩ }, s.2)
  | '\\' =>
    (escape? r.modes t).bind fun e => if r.modes.allows e.1 then some (r.leaf, e.2) else none
  | '.' => if r.modes.unicode then some (r.leaf, t) else none
  | '^' => some (r.leaf, t)
  | '$' => some (r.leaf, t)
  | '\x7b' => none
  | c =>
    if c = '?' ∨ c = '*' ∨ c = '+' then
      let rest := match t with
        | '?' :: t => t
        | t => t
      r.body.repeat?.map fun body => ({ r with body }, rest)
    else if r.modes.allowsCharacter then some (r.leaf, t)
    else none

def finish? : Nat → Reading → Text → Option Reading
  | 0, _, _ => none
  | fuel + 1, r, t =>
    match r.modes.skip t with
    | [] => some r
    | c :: t => (r.step? c t).bind fun s => finish? fuel s.1 s.2

end Reading

end Pattern

/-- Whether a text is a pattern. Its groups are all closed, and it is not too deep. -/
def isPattern (t : Text) : Bool :=
  (Pattern.Reading.finish? (t.length + 1) .start t).any fun r =>
    r.outer.isEmpty && r.body.depth ≤ Pattern.depthLimit

end CanonicalText
