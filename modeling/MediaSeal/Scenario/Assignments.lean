import MediaSeal.Text.Hex

/-!
# Assignments

A scenario file is a list of assignments in TOML's notation, one a line: a
name, an equals sign, and a text, a whole number, `true` or `false`. Comments
and empty lines stand between them. Whatever else that notation can express,
such as fractions, dates, lists and tables, is refused just as a mistake is,
because no setting of a scenario could take it.

Readers take characters off the front of a list and return what is left, or
`none` if what they look for is not there.
-/

namespace MediaSeal.Assignments

/-- What can be assigned to a name. -/
inductive Setting
  | text (value : String)
  | number (value : Int)
  | flag (value : Bool)
deriving DecidableEq, Repr

/-! ## Characters -/

def isBlank (c : Char) : Bool := c == ' ' || c == '\t'

/-- Characters that a name may consist of without being quoted. -/
def isBare (c : Char) : Bool := c.isAlphanum || c == '_' || c == '-'

/-- Characters that may stand anywhere within a line. -/
def isInLine (c : Char) : Bool := c == '\t' || (' ' ≤ c && c != '\x7f')

/-- Characters of numbers and flags, and of all that resembles them. -/
def isWord (c : Char) : Bool := c.isAlphanum || c == '_' || c == '+' || c == '-' || c == '.'

def skipBlanks (s : List Char) : List Char := s.dropWhile isBlank

/-- What follows a line break, if there is one here. -/
def lineBreak? : List Char → Option (List Char)
  | '\n' :: rest => some rest
  | '\r' :: '\n' :: rest => some rest
  | _ => none

/-- What follows the end of a line, where nothing is left on it but blanks
and a comment. -/
def endLine? (s : List Char) : Option (List Char) :=
  let s := match skipBlanks s with
    | '#' :: comment => comment.dropWhile isInLine
    | s => s
  if s.isEmpty then some [] else lineBreak? s

/-! ## Texts -/

/-- The character that a letter stands for after a backslash. -/
def escape? (c : Char) : Option Char :=
  match c with
  | 'b' => some '\x08'
  | 't' => some '\t'
  | 'n' => some '\n'
  | 'f' => some '\x0c'
  | 'r' => some '\r'
  | '"' => some '"'
  | '\\' => some '\\'
  | _ => none

/-- The character whose number the digits give, if there is one. -/
def character? (digits : List Char) : Option Char := do
  let values ← digits.mapM Hex.value?
  let code := values.foldl (fun sum value => 16 * sum + value) 0
  if code.isValidChar then some (Char.ofNat code) else none

/-- A text, and what follows it. -/
abbrev Text := Option (List Char × List Char)

/-- A character put in front of a text. -/
def before (c : Char) (text : Text) : Text := text.map fun (chars, rest) => (c :: chars, rest)

/-- What follows three quotes that end a text: up to two more of them belong
to the text. -/
def closing (quote : Char) (rest : List Char) : List Char × List Char :=
  let more := (rest.takeWhile (· == quote)).take 2
  (more, rest.drop more.length)

/-- A text up to a single quote, in which nothing is special. -/
def literal : List Char → Text
  | [] => none
  | c :: rest =>
    if c == '\'' then some ([], rest)
    else if isInLine c then before c (literal rest)
    else none

/-- A text up to three single quotes, in which line breaks may occur. -/
def longLiteral : List Char → Text
  | [] => none
  | '\'' :: '\'' :: '\'' :: rest => some (closing '\'' rest)
  | '\r' :: '\n' :: rest => before '\n' (longLiteral rest)
  | c :: rest => if c == '\n' || isInLine c then before c (longLiteral rest) else none

/-- Whether nothing but blanks is left on the line. -/
def isLineEnd (s : List Char) : Bool := (lineBreak? (skipBlanks s)).isSome

/-- A text up to a double quote or, if `long`, up to three of them. Backslashes
introduce escapes. In a long text line breaks may occur, and a backslash at the
end of a line makes all blanks and line breaks after it be skipped. -/
def quoted (long : Bool) : (skipping : Bool) → List Char → Text
  | _, [] => none
  | _, '\\' :: 'u' :: a :: b :: c :: d :: rest =>
    match character? [a, b, c, d] with
    | some char => before char (quoted long false rest)
    | none => none
  | _, '\\' :: 'U' :: a :: b :: c :: d :: e :: f :: g :: h :: rest =>
    match character? [a, b, c, d, e, f, g, h] with
    | some char => before char (quoted long false rest)
    | none => none
  | _, '\\' :: c :: rest =>
    match escape? c with
    | some char => before char (quoted long false rest)
    | none => if long && isLineEnd (c :: rest) then quoted long true (c :: rest) else none
  | _, '"' :: '"' :: '"' :: rest =>
    if long then some (closing '"' rest) else some ([], '"' :: '"' :: rest)
  | skipping, '\r' :: '\n' :: rest =>
    if skipping then quoted long true rest
    else if long then before '\n' (quoted long false rest)
    else none
  | skipping, c :: rest =>
    if skipping && (isBlank c || c == '\n') then quoted long true rest
    else if c == '"' && !long then some ([], rest)
    else if isInLine c || (c == '\n' && long) then before c (quoted long false rest)
    else none

/-! ## Numbers -/

/-- The number whose digits to a base these are; underscores may stand between
digits. `sum` is the value of the digits before, if there were any. -/
def digits? (base : Nat) : (sum : Option Nat) → List Char → Option Nat
  | sum, [] => sum
  | none, '_' :: _ => none
  | some _, ['_'] => none
  | some sum, '_' :: c :: rest => digit sum c rest
  | sum, c :: rest => digit (sum.getD 0) c rest
where
  /-- The value with one more digit, and those after it. -/
  digit (sum : Nat) (c : Char) (rest : List Char) : Option Nat :=
    match Hex.value? c with
    | some value => if value < base then digits? base (some (base * sum + value)) rest else none
    | none => none

/-- A number to base ten without a needless zero in front. -/
def decimal? : List Char → Option Nat
  | ['0'] => some 0
  | '0' :: _ => none
  | word => digits? 10 none word

/-- A number in any of its spellings. -/
def number? (word : List Char) : Option Int :=
  match word with
  | '0' :: 'x' :: digits => (digits? 16 none digits).map Int.ofNat
  | '0' :: 'o' :: digits => (digits? 8 none digits).map Int.ofNat
  | '0' :: 'b' :: digits => (digits? 2 none digits).map Int.ofNat
  | '+' :: digits => (decimal? digits).map Int.ofNat
  | '-' :: digits => (decimal? digits).map fun n => -Int.ofNat n
  | digits => (decimal? digits).map Int.ofNat

/-- Numbers take sixty-four bits, one of them for the sign. -/
def inRange (n : Int) : Bool :=
  decide (-0x8000000000000000 ≤ n ∧ n < 0x8000000000000000)

/-- A number or a flag. -/
def word? (word : List Char) : Option Setting :=
  if word = "true".toList then some (.flag true)
  else if word = "false".toList then some (.flag false)
  else (number? word).bind fun n => if inRange n then some (.number n) else none

/-! ## Assignments -/

/-- A text without the line break that it may start with. -/
def withoutLineBreak (s : List Char) : List Char := (lineBreak? s).getD s

/-- What is assigned. -/
def setting? (s : List Char) : Option (Setting × List Char) :=
  let text := Option.map fun (chars, rest) => (Setting.text (String.ofList chars), rest)
  match s with
  | '"' :: '"' :: '"' :: rest => text (quoted true false (withoutLineBreak rest))
  | '"' :: rest => text (quoted false false rest)
  | '\'' :: '\'' :: '\'' :: rest => text (longLiteral (withoutLineBreak rest))
  | '\'' :: rest => text (literal rest)
  | _ =>
    let word := s.takeWhile isWord
    (word? word).map fun setting => (setting, s.drop word.length)

/-- The name that something is assigned to. -/
def name? (s : List Char) : Option (String × List Char) :=
  let text := Option.map fun (chars, rest) => (String.ofList chars, rest)
  match s with
  | '"' :: rest => text (quoted false false rest)
  | '\'' :: rest => text (literal rest)
  | _ =>
    let word := s.takeWhile isBare
    if word.isEmpty then none else some (String.ofList word, s.drop word.length)

/-- One assignment, up to the end of its line. -/
def assignment? (s : List Char) : Option ((String × Setting) × List Char) := do
  let (name, s) ← name? s
  let '=' :: s := skipBlanks s | none
  let (setting, s) ← setting? (skipBlanks s)
  return ((name, setting), ← endLine? s)

/-- The assignments on at most `lines` lines. -/
def assignments? : (lines : Nat) → List Char → Option (List (String × Setting))
  | 0, _ => none
  | lines + 1, s =>
    let s := skipBlanks s
    if s.isEmpty then some []
    else match endLine? s with
    | some rest => assignments? lines rest
    | none => do
      let (assignment, rest) ← assignment? s
      return assignment :: (← assignments? lines rest)

/-- The assignments of a file, in order. A byte order mark may come first. No
file has more lines than it has characters and one. -/
def ofText? (text : String) : Option (List (String × Setting)) :=
  let s := match text.toList with
    | '\ufeff' :: rest => rest
    | s => s
  assignments? (s.length + 1) s

end MediaSeal.Assignments
