import TypeGuard.Number.Numeral

/-!
# Tokens

A source text is cut into brackets, apostrophes, strings and atoms by a machine that reads one
character at a time. White space and comments separate tokens. A text that ends inside a string, or
after a backslash, ends in a token that says so.
-/

namespace TypeGuard

inductive Bracket where
  | round
  | square
  deriving DecidableEq, Repr

def Bracket.closer : Bracket → Char
  | .round => ')'
  | .square => ']'

inductive Token where
  | opening (bracket : Bracket)
  | closing (bracket : Bracket)
  | apostrophe
  | text (value : List Char)
  | atom (value : List Char)
  /-- The text ended inside a string. -/
  | unterminated
  /-- The text ended after a backslash. -/
  | danglingEscape
  deriving DecidableEq, Repr

/-- A token and the offset of its first character. -/
structure Lexeme where
  token : Token
  offset : Nat
  deriving DecidableEq, Repr

namespace Token

/-- What the characters read so far belong to. The characters of an unfinished token are kept in
reverse. -/
inductive Mode where
  | ground
  | comment
  | text (start : Nat) (read : List Char)
  | textEscape (start : Nat) (read : List Char)
  | atom (start : Nat) (read : List Char)
  | atomEscape (start : Nat) (read : List Char)
  deriving DecidableEq, Repr

/-- The characters that end an atom. -/
def endsAtom (c : Char) : Bool :=
  c ∈ ['(', ')', '[', ']', '"', ';'] || Text.isSpace c

/-- The character that an escape in a string stands for; any other escape stands for itself. -/
def textEscape? : Char → Option Char
  | '\\' => some '\\'
  | '"' => some '"'
  | 'b' => some '\x08'
  | 'f' => some '\x0c'
  | 'n' => some '\n'
  | 'r' => some '\r'
  | 't' => some '\t'
  | _ => none

/-- The characters that a backslash in an atom protects. -/
def isAtomEscape (c : Char) : Bool :=
  c ∈ ['\\', '\x27', '\x60', '"', '(', ')', '[', ']', ' ', ',', '?', ';', '#']

/-- Reads a character outside every token. -/
def start (offset : Nat) (c : Char) : List Lexeme × Mode :=
  if c = '"' then ([], .text offset [])
  else if Text.isSpace c then ([], .ground)
  else if c = '(' then ([⟨.opening .round, offset⟩], .ground)
  else if c = '[' then ([⟨.opening .square, offset⟩], .ground)
  else if c = ')' then ([⟨.closing .round, offset⟩], .ground)
  else if c = ']' then ([⟨.closing .square, offset⟩], .ground)
  else if c = '\x27' then ([⟨.apostrophe, offset⟩], .ground)
  else if c = ';' then ([], .comment)
  else if c = '\\' then ([], .atomEscape offset [])
  else ([], .atom offset [c])

/-- Reads one character: the tokens it completes and what the next character belongs to. -/
def step (offset : Nat) (c : Char) : Mode → List Lexeme × Mode
  | .ground => start offset c
  | .comment => ([], if c = '\n' then .ground else .comment)
  | .text first read =>
    if c = '"' then ([⟨.text read.reverse, first⟩], .ground)
    else if c = '\\' then ([], .textEscape first read)
    else ([], .text first (c :: read))
  | .textEscape first read =>
    match textEscape? c with
    | some d => ([], .text first (d :: read))
    | none => ([], .text first (c :: '\\' :: read))
  | .atom first read =>
    if endsAtom c then
      let (lexemes, mode) := start offset c
      (⟨.atom read.reverse, first⟩ :: lexemes, mode)
    else if c = '\\' then ([], .atomEscape first read)
    else ([], .atom first (c :: read))
  | .atomEscape first read =>
    ([], .atom first (if isAtomEscape c then c :: read else c :: '\\' :: read))

/-- The token left over when the text ends. -/
def finish : Mode → List Lexeme
  | .ground | .comment => []
  | .text first _ => [⟨.unterminated, first⟩]
  | .textEscape first _ | .atomEscape first _ => [⟨.danglingEscape, first⟩]
  | .atom first read => [⟨.atom read.reverse, first⟩]

/-- The tokens of the characters from `offset` on. -/
def scanFrom (offset : Nat) (mode : Mode) : List Char → List Lexeme
  | [] => finish mode
  | c :: cs =>
    let (lexemes, next) := step offset c mode
    lexemes ++ scanFrom (offset + 1) next cs

/-- The tokens of a text. -/
def scan (cs : List Char) : List Lexeme := scanFrom 0 .ground cs

end Token

end TypeGuard
