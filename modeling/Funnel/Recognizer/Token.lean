import Funnel.Text.Blank
import Funnel.Text.Case
import Funnel.Text.Digit

/-!
# SQL tokens

A statement is read from left to right, one character at a time, so that what has been read of a
text is the state in which the rest is read. A text, quoted name or comment that is still open at
the end is a fault, and so is a text of binary or hexadecimal digits that holds anything else.
-/

set_option autoImplicit false

namespace Funnel.Sql

inductive Token where
  /-- A name or keyword without quotes, in upper case. -/
  | word (upper : String)
  /-- A name in double quotes, in upper case. -/
  | quotedName (upper : String)
  /-- A text in single quotes. -/
  | text (chars : List Char)
  /-- A text or number written in a way of its own: with a letter in front, or between dollars. -/
  | coded
  | number
  | symbol (chars : String)
  | comment
deriving DecidableEq, Repr

/-- What the letter in front of a quote makes of the text. -/
inductive Mark where
  | plain
  | national
  /-- A backslash takes the next character with it. -/
  | escapes
  | digits (base : Nat)
deriving DecidableEq, Repr

/-- The two kinds of comments with an end of their own. -/
inductive Remark where
  | starred
  | hashed
deriving DecidableEq, Repr

/-- What the characters since the last token belong to. -/
inductive Mode where
  | blank
  | word (reversed : List Char)
  /-- A zero that nothing follows yet. -/
  | zero
  /-- A number; `exponent` is 1 after its letter and 2 after its sign. -/
  | number (hasPoint : Bool) (exponent : Nat)
  /-- A sign after an exponent's letter, which belongs to the number if a digit follows. -/
  | numberSign (hasPoint : Bool) (sign : Char)
  /-- The digits after `0x` or `0b`, reversed. -/
  | radix (base : Nat) (reversed : List Char)
  | symbol (chars : List Char)
  | text (mark : Mark) (reversed : List Char)
  | escaped (mark : Mark) (reversed : List Char)
  /-- After a quote that ends a text unless it is doubled. -/
  | textEnd (mark : Mark) (reversed : List Char)
  | quotedName (reversed : List Char)
  | quotedEnd (reversed : List Char)
  | lineComment
  /-- Comments nest; the last character is the one that may start or end one. -/
  | blockComment (remark : Remark) (depth : Nat) (last : Option Char)
  /-- A dollar sign and the tag after it, reversed. -/
  | dollar (tag : List Char)
  /-- A text between two equal dollar tags: the end and the text, both reversed. -/
  | dollarText (finish seen : List Char)
  /-- After something that cannot be read. -/
  | broken
deriving DecidableEq, Repr

/-- Tokens read so far, the last one first, and the state of the reader. -/
structure Reading where
  tokens : List Token
  mode : Mode

def upperText (reversed : List Char) : String :=
  String.ofList (reversed.reverse.flatMap Text.upperChars)

def symbolChars : List Char := "()[]\x7b\x7d&^:,-.<>=/\\*%~?|+;#@!'\"\x60".toList

/-- Symbols of more than one character. -/
def longSymbols : List (List Char) :=
  ["::", "?::", "<=", "<=>", ">=", "<>", "!=", "==", "||", "||/", "|/", "|>", "->", "->>", "<->",
    "-|-", "#>", "#>>", "#-", "@>", "<@", "&&", "&<", "&>", "~*", "~~", "~~*", "~~~", "=>", ":=",
    "@@", "?|", "?&", "??"].map String.toList

/-- Beginnings of long symbols that are no symbols themselves. -/
def unfinishedSymbols : List (List Char) := ["?:", "<-", "-|"].map String.toList

def symbolToken (chars : List Char) : Token :=
  if chars = ['\x60'] then .word "\x60" else .symbol (String.ofList chars)

/-- The tokens of a symbol, the last one first. -/
def symbolTokens (chars : List Char) : List Token :=
  if chars ∈ unfinishedSymbols then chars.reverse.map fun c => symbolToken [c]
  else [symbolToken chars]

/-- The mark that a word directly before a quote is. -/
def mark? (reversed : List Char) : Option Mark :=
  match reversed with
  | ['e'] | ['E'] => some .escapes
  | ['b'] | ['B'] => some (.digits 2)
  | ['x'] | ['X'] => some (.digits 16)
  | ['n'] | ['N'] => some .national
  | _ => none

def digitValue? (c : Char) : Option Nat :=
  let l := Text.lowerChar c
  if 'a' ≤ l ∧ l ≤ 'f' then some (l.toNat - 87) else Text.decimalValue? c

/-- Whether characters are digits of a base; single underscores may part them. -/
def areDigits (base : Nat) : List Char → Bool
  | [] => false
  | [c] => (digitValue? c).any (· < base)
  | '_' :: c :: cs => c != '_' && areDigits base (c :: cs)
  | c :: cs => (digitValue? c).any (· < base) && areDigits base cs

def isNumeral (base : Nat) (cs : List Char) : Bool :=
  let cs := Text.trimChars cs
  let cs := match cs with
    | '-' :: r | '+' :: r => r
    | r => r
  match cs with
  | '_' :: _ => false
  | '0' :: l :: r =>
    if Text.lowerChar l = (if base = 16 then 'x' else 'b') ∧ r ≠ [] then areDigits base r
    else areDigits base cs
  | _ => areDigits base cs

def Mode.start (c : Char) : Mode :=
  if Text.isBlank c then .blank
  else if c = '\'' then .text .plain []
  else if c = '"' then .quotedName []
  else if c = '$' then .dollar []
  else if c = '0' then .zero
  else if Text.isDigit c then .number false 0
  else if c ∈ symbolChars then .symbol [c]
  else .word [c]

/-- Whether a character belongs to the word before it. -/
def continuesWord (c : Char) : Bool := !(Text.isBlank c || c ∈ symbolChars)

/-- The tokens of a finished mode, the last one first; none for one that has to be closed. -/
def Mode.finish? : Mode → Option (List Token)
  | .blank | .lineComment => some []
  | .word reversed => some [.word (upperText reversed)]
  | .zero | .number _ _ => some [.number]
  | .numberSign _ sign => some [symbolToken [sign], .number]
  | .radix base reversed =>
    some [if areDigits base reversed.reverse then .coded else .quotedName (upperText reversed)]
  | .symbol chars => some (symbolTokens chars)
  | .textEnd .plain reversed => some [.text reversed.reverse]
  | .textEnd (.digits base) reversed =>
    if reversed = [] ∨ isNumeral base reversed.reverse then some [.coded] else none
  | .textEnd _ _ => some [.coded]
  | .quotedEnd reversed => some [.quotedName (upperText reversed)]
  | .text _ _ | .escaped _ _ | .quotedName _ | .blockComment _ _ _ | .dollar _ | .dollarText _ _
  | .broken => none

def Reading.restart (r : Reading) (c : Char) : Reading :=
  match r.mode.finish? with
  | some last => ⟨last ++ r.tokens, .start c⟩
  | none => ⟨r.tokens, .broken⟩

/-- A symbol made longer by a character, or the comment that both start. -/
def Reading.extend? (tokens : List Token) (chars : List Char) (c : Char) : Option Reading :=
  if chars = ['-'] ∧ c = '-' then some ⟨.comment :: tokens, .lineComment⟩
  else if chars = ['/'] ∧ c = '*' then some ⟨.comment :: tokens, .blockComment .starred 1 none⟩
  else if chars = ['\x7b'] ∧ c = '#' then some ⟨.comment :: tokens, .blockComment .hashed 1 none⟩
  else if chars ++ [c] ∈ longSymbols ∨ chars ++ [c] ∈ unfinishedSymbols then
    some ⟨tokens, .symbol (chars ++ [c])⟩
  else none

/-- Reads one character after a symbol. Of an unfinished one only the last character is left to
be made longer. -/
def Reading.symbol (tokens : List Token) (chars : List Char) (c : Char) : Reading :=
  match extend? tokens chars c with
  | some r => r
  | none =>
    match chars with
    | [a, b] =>
      if chars ∈ unfinishedSymbols then
        (extend? (symbolToken [a] :: tokens) [b] c).getD
          ⟨symbolToken [b] :: symbolToken [a] :: tokens, .start c⟩
      else ⟨symbolToken chars :: tokens, .start c⟩
    | _ => ⟨symbolToken chars :: tokens, .start c⟩

def Remark.opening : Remark → Char
  | .starred => '/'
  | .hashed => '\x7b'

def Remark.closing : Remark → Char
  | .starred => '/'
  | .hashed => '\x7d'

def Remark.inner : Remark → Char
  | .starred => '*'
  | .hashed => '#'

/-- Reads one character of a comment. The character after a start does not start another one. -/
def Mode.comment (k : Remark) (depth : Nat) (last : Option Char) (c : Char) : Mode :=
  if last = some k.inner ∧ c = k.closing then
    if depth ≤ 1 then .blank else .blockComment k (depth - 1) (some c)
  else if last = some k.opening ∧ c = k.inner then .blockComment k (depth + 1) none
  else if last = none ∧ c = k.opening then .blockComment k depth (some ' ')
  else .blockComment k depth (some c)

/-- Whether the last token makes the next one the name of a parameter. -/
def Reading.afterParameter (r : Reading) : Bool :=
  match r.tokens with
  | .symbol s :: _ => s = "@" ∨ s = "$"
  | _ => false

def Reading.number (r : Reading) (hasPoint : Bool) (exponent : Nat) (c : Char) : Reading :=
  if Text.isDigit c then ⟨r.tokens, .number hasPoint exponent⟩
  else if c = '.' ∧ hasPoint = false ∧ r.afterParameter = false then
    ⟨r.tokens, .number true exponent⟩
  else if (c = '-' ∨ c = '+') ∧ exponent = 1 then ⟨r.tokens, .numberSign hasPoint c⟩
  else if (c = 'e' ∨ c = 'E') ∧ exponent = 0 then ⟨r.tokens, .number hasPoint 1⟩
  else r.restart c

/-- Reads one character where no dollar tag is open. -/
def Reading.plainStep (r : Reading) (c : Char) : Reading :=
  match r.mode with
  | .blank => r.restart c
  | .word reversed =>
    match if c = '\'' then mark? reversed else none with
    | some mark => ⟨r.tokens, .text mark []⟩
    | none => if continuesWord c then ⟨r.tokens, .word (c :: reversed)⟩ else r.restart c
  | .zero =>
    if c = 'x' ∨ c = 'X' then ⟨r.tokens, .radix 16 []⟩
    else if c = 'b' ∨ c = 'B' then ⟨r.tokens, .radix 2 []⟩
    else r.number false 0 c
  | .number hasPoint exponent => r.number hasPoint exponent c
  | .numberSign hasPoint sign =>
    if Text.isDigit c then ⟨r.tokens, .number hasPoint 2⟩
    else .symbol (.number :: r.tokens) [sign] c
  | .radix base reversed =>
    if continuesWord c ∧ c ≠ '$' then ⟨r.tokens, .radix base (c :: reversed)⟩ else r.restart c
  | .symbol chars => .symbol r.tokens chars c
  | .text mark reversed =>
    if c = '\'' then ⟨r.tokens, .textEnd mark reversed⟩
    else if mark = .escapes ∧ c = '\\' then ⟨r.tokens, .escaped mark reversed⟩
    else ⟨r.tokens, .text mark (c :: reversed)⟩
  | .escaped mark reversed => ⟨r.tokens, .text mark (c :: reversed)⟩
  | .textEnd mark reversed =>
    if c = '\'' then ⟨r.tokens, .text mark (c :: reversed)⟩ else r.restart c
  | .quotedName reversed =>
    if c = '"' then ⟨r.tokens, .quotedEnd reversed⟩ else ⟨r.tokens, .quotedName (c :: reversed)⟩
  | .quotedEnd reversed =>
    if c = '"' then ⟨r.tokens, .quotedName (c :: reversed)⟩ else r.restart c
  | .lineComment => if c = '\n' ∨ c = '\r' then ⟨r.tokens, .blank⟩ else r
  | .blockComment remark depth last => ⟨r.tokens, .comment remark depth last c⟩
  | .dollarText finish seen =>
    if finish.isPrefixOf (c :: seen) then ⟨.coded :: r.tokens, .blank⟩
    else ⟨r.tokens, .dollarText finish (c :: seen)⟩
  | .dollar _ | .broken => r

/-- Reads a dollar sign as the mark of a parameter, and then the characters after it. -/
def Reading.parameter (tokens : List Token) (cs : List Char) : Reading :=
  cs.foldl plainStep ⟨.symbol "$" :: tokens, .blank⟩

/-- Reads one character. A dollar tag without blanks opens a text with the next dollar sign,
unless the tag is a number. -/
def Reading.step (r : Reading) (c : Char) : Reading :=
  match r.mode with
  | .dollar tag =>
    if c = '$' ∧ (tag = [] ∨ ¬ tag.all Text.isDigit) then
      ⟨r.tokens, .dollarText ('$' :: tag ++ ['$']) []⟩
    else if c = '$' ∨ Text.isBlank c then parameter r.tokens (tag.reverse ++ [c])
    else ⟨r.tokens, .dollar (c :: tag)⟩
  | _ => r.plainStep c

def Reading.init : Reading := ⟨[], .blank⟩

def Reading.steps (r : Reading) (cs : List Char) : Reading := cs.foldl Reading.step r

/-- All tokens of a finished reading, the last one first. A dollar tag that opens no text is the
name of a parameter. -/
def Reading.finish? (r : Reading) : Option (List Token) :=
  let r := match r.mode with
    | .dollar (c :: tag) => parameter r.tokens (c :: tag).reverse
    | .dollarText ('$' :: c :: tag) [] =>
      match ((c :: tag).dropLast).reverse with
      | _ :: rest => parameter r.tokens (rest ++ ['$'])
      | [] => r
    | _ => r
  r.mode.finish?.map (· ++ r.tokens)

def doubleWords : List (String × String) :=
  [("GROUP", "BY"), ("ORDER", "BY"), ("PARTITION", "BY"), ("PARTITIONED", "BY"),
    ("CLUSTER", "BY"), ("DISTRIBUTE", "BY"), ("SORT", "BY"), ("CONNECT", "BY"), ("START", "WITH"),
    ("SIMILAR", "TO"), ("GROUPING", "SETS"), ("DOUBLE", "PRECISION"), ("CHARACTER", "VARYING"),
    ("CHAR", "VARYING"), ("CHARACTER", "SET"), ("PRIMARY", "KEY"), ("FOREIGN", "KEY"),
    ("FOR", "VERSION"), ("FOR", "TIMESTAMP")]

def joinWords : List Token → List Token
  | .word a :: .word b :: ts =>
    if (a, b) ∈ doubleWords then .word (a ++ " " ++ b) :: joinWords ts
    else .word a :: joinWords (.word b :: ts)
  | t :: ts => t :: joinWords ts
  | [] => []

/-- The tokens of a text; none if something in it is left open. -/
def tokens? (cs : List Char) : Option (List Token) :=
  (Reading.init.steps cs).finish?.map fun ts => joinWords ts.reverse

end Funnel.Sql
