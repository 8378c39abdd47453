/-!
# Patterns for ids

A pattern for ids is a sequence of tokens.  `?` stands for one byte and `*` for any text, also
across `/`; `**` as a whole component stands for any number of components; `[a-z]` stands for one
byte of a class, `{a,b}` for one of several sequences; a backslash takes the next character as it
is.

A pattern is read from left to right.  Inside braces the tokens belong to the alternative at hand,
and the alternatives around it wait (`Reading`).
-/

set_option autoImplicit false

namespace ModuleInterop.Glob

/-- What a pattern consists of. -/
inductive Token where
  | literal (c : Char)
  /-- One byte. -/
  | anyByte
  /-- Any text. -/
  | anyText
  /-- Any number of components before the rest of the pattern. -/
  | leading
  /-- Any number of components between two parts of the pattern. -/
  | between
  /-- Anything below what comes before. -/
  | trailing
  /-- One byte of a class, or one that is not in it. -/
  | class (negated : Bool) (ranges : List (Char × Char))
  /-- One of several sequences. -/
  | choice (alternatives : List (List Token))
  deriving Repr

/-- Why a text is no pattern. -/
inductive Problem where
  | unclosedClass
  | invalidRange (first last : Char)
  | unclosedChoice
  | unopenedChoice
  | danglingEscape
  deriving DecidableEq, Repr

/-- The wording of a problem. -/
def Problem.message : Problem → String
  | .unclosedClass => "unclosed character class; missing ']'"
  | .invalidRange first last =>
    "invalid range; '" ++ String.ofList [first] ++ "' > '" ++ String.ofList [last] ++ "'"
  | .unclosedChoice =>
    "unclosed alternate group; missing '\x7d' (maybe escape '\x7b' with '[\x7b]'?)"
  | .unopenedChoice =>
    "unopened alternate group; missing '\x7b' (maybe escape '\x7d' with '[\x7d]'?)"
  | .danglingEscape => "dangling '\\'"

/-- A choice that has not ended: its alternatives so far, and the tokens before it. -/
structure OpenChoice where
  alternatives : List (List Token)
  before : List Token

/-- What has been read of a pattern: the tokens of the sequence at hand, the choices around it, the
innermost first, and the character read last. -/
structure Reading where
  tokens : List Token
  opened : List OpenChoice
  last : Option Char

namespace Reading

/-- Before the first character. -/
def start : Reading := ⟨[], [], none⟩

/-- Adds tokens to the sequence at hand. -/
def add (reading : Reading) (tokens : List Token) : Reading :=
  { reading with tokens := reading.tokens ++ tokens }

/-- Puts a token in the place of the last one. -/
def replaceLast (reading : Reading) (token : Token) : Reading :=
  { reading with tokens := reading.tokens.dropLast ++ [token] }

/-- The character that has been read. -/
def after (reading : Reading) (c : Char) : Reading := { reading with last := some c }

/-- A choice begins. -/
def openChoice (reading : Reading) : Reading :=
  { reading with tokens := [], opened := ⟨[], reading.tokens⟩ :: reading.opened }

/-- The next alternative of a choice begins; outside a choice the comma stands for itself. -/
def nextAlternative (reading : Reading) : Reading :=
  match reading.opened with
  | [] => reading.add [.literal ',']
  | inner :: outer =>
    { reading with
      tokens := []
      opened := { inner with alternatives := inner.alternatives ++ [reading.tokens] } :: outer }

/-- A choice ends. -/
def closeChoice (reading : Reading) : Except Problem Reading :=
  match reading.opened with
  | [] => .error .unopenedChoice
  | inner :: outer =>
    .ok { reading with
      tokens := inner.before ++ [.choice (inner.alternatives ++ [reading.tokens])]
      opened := outer }

/-- Two stars at the end of a pattern or alternative (`atEnd`), or before a separator, take the
place of the separator before them. -/
def addComponents (reading : Reading) (atEnd : Bool) : Reading :=
  match reading.tokens.getLast? with
  | some .leading => reading
  | some .trailing => reading
  | _ => reading.replaceLast (if atEnd then .trailing else .between)

/-- Whether two stars can stand for components after what has been read: a separator or the
beginning of an alternative comes before them. -/
def atComponent (reading : Reading) : Bool :=
  reading.last == some '/' ||
    (!reading.opened.isEmpty && (reading.last == some ',' || reading.last == some '\x7b'))

/-- Takes two stars with the text after them.  The answer tells whether a separator after them
belongs to them. -/
def takeStars (reading : Reading) (rest : List Char) : Reading × Bool :=
  let next := rest.head?
  if reading.tokens.isEmpty then
    if next.isNone || next == some '/' then (reading.add [.leading], next.isSome)
    else (reading.add [.anyText, .anyText], false)
  else if !reading.atComponent then (reading.add [.anyText, .anyText], false)
  else if next == some '/' then (reading.addComponents false, true)
  else if next.isNone || (!reading.opened.isEmpty && (next == some ',' || next == some '\x7d')) then
    (reading.addComponents true, false)
  else (reading.add [.anyText, .anyText], false)

end Reading

/-- What has been read of a class. -/
structure ClassReading where
  negated : Bool
  ranges : List (Char × Char)
  /-- Nothing has been read yet. -/
  first : Bool
  /-- A hyphen has been read, so the next character may end a range. -/
  inRange : Bool

/-- Ends the last range of a class at a character. -/
def endRange (ranges : List (Char × Char)) (c : Char) : Except Problem (List (Char × Char)) :=
  match ranges.getLast? with
  | some (low, _) =>
    if c < low then .error (.invalidRange low c) else .ok (ranges.dropLast ++ [(low, c)])
  | none => .ok ranges

/-- Reads a class to its end; the answer has the text after it. -/
def readClass (reading : ClassReading) : List Char → Except Problem (Token × List Char)
  | [] => .error .unclosedClass
  | c :: rest =>
    if c = ']' && !reading.first then
      .ok (.class reading.negated
        (if reading.inRange then reading.ranges ++ [('-', '-')] else reading.ranges), rest)
    else if c = '-' && !reading.first && !reading.inRange then
      readClass { reading with inRange := true } rest
    else if reading.inRange && c != ']' then do
      let ranges ← endRange reading.ranges c
      readClass { reading with ranges, inRange := false } rest
    else
      readClass
        { reading with ranges := reading.ranges ++ [(c, c)], first := false, inRange := false } rest

/-- What follows a class is shorter than the class and what follows it. -/
theorem readClass_length {reading : ClassReading} {text rest : List Char} {token : Token}
    (h : readClass reading text = .ok (token, rest)) : rest.length < text.length := by
  induction text generalizing reading with
  | nil => simp [readClass] at h
  | cons c text ih =>
    unfold readClass at h
    split at h
    · simp only [Except.ok.injEq, Prod.mk.injEq] at h
      simp [h.2]
    · split at h
      · exact Nat.lt_succ_of_lt (ih h)
      · split at h
        · cases hr : endRange reading.ranges c with
          | error e => simp [hr, bind, Except.bind] at h
          | ok ranges =>
            simp only [hr, bind, Except.bind] at h
            exact Nat.lt_succ_of_lt (ih h)
        · exact Nat.lt_succ_of_lt (ih h)

/-- Reads a class whose bracket has been read. -/
def readClassBody : List Char → Except Problem (Token × List Char)
  | '!' :: rest => readClass ⟨true, [], true, false⟩ rest
  | '^' :: rest => readClass ⟨true, [], true, false⟩ rest
  | rest => readClass ⟨false, [], true, false⟩ rest

/-- What follows a class is shorter than the class and what follows it. -/
theorem readClassBody_length {text rest : List Char} {token : Token}
    (h : readClassBody text = .ok (token, rest)) : rest.length < text.length := by
  unfold readClassBody at h
  split at h
  · exact Nat.lt_succ_of_lt (readClass_length h)
  · exact Nat.lt_succ_of_lt (readClass_length h)
  · exact readClass_length h

/-- Reads a pattern after what has been read of it. -/
def readFrom (reading : Reading) (text : List Char) : Except Problem Reading :=
  match text with
  | [] => .ok reading
  | '?' :: rest => readFrom ((reading.add [.anyByte]).after '?') rest
  | '*' :: '*' :: '/' :: rest =>
    match reading.takeStars ('/' :: rest) with
    | (next, true) => readFrom (next.after '/') rest
    | (next, false) => readFrom (next.after '*') ('/' :: rest)
  | '*' :: '*' :: rest => readFrom ((reading.takeStars rest).1.after '*') rest
  | '*' :: rest => readFrom ((reading.add [.anyText]).after '*') rest
  | '[' :: rest =>
    match h : readClassBody rest with
    | .error problem => .error problem
    | .ok (token, others) =>
      have : others.length < rest.length := readClassBody_length h
      readFrom ((reading.add [token]).after ']') others
  | '\x7b' :: rest => readFrom (reading.openChoice.after '\x7b') rest
  | '\x7d' :: rest =>
    match reading.closeChoice with
    | .error problem => .error problem
    | .ok next => readFrom (next.after '\x7d') rest
  | ',' :: rest => readFrom (reading.nextAlternative.after ',') rest
  | '\\' :: c :: rest => readFrom ((reading.add [.literal c]).after c) rest
  | ['\\'] => .error .danglingEscape
  | c :: rest => readFrom ((reading.add [.literal c]).after c) rest
termination_by text.length

/-- The tokens of a pattern. -/
def read (text : List Char) : Except Problem (List Token) := do
  let reading ← readFrom .start text
  if reading.opened.isEmpty then .ok reading.tokens else .error .unclosedChoice

end ModuleInterop.Glob
