import SchemaDelta.Json.Reader
import SchemaDelta.Text.Reader

/-!
# Quoted texts

The four ways to quote a text: with escapes or literally, on one line or on several. On several
lines a line feed right behind the opening marks is dropped, every line break is a line feed,
and a backslash at the end of a line takes the blanks up to the next word with it.
-/

namespace SchemaDelta.Toml

/-- Whether a character may stand in a quoted text or a comment as it is: a tab, a printing
character, or one beyond ASCII. -/
def isPlain (c : Char) : Bool :=
  c == '\t' || (0x20 ≤ c.toNat && c.toNat ≤ 0x7E) || 0x80 ≤ c.toNat

/-- The character with the code that hexadecimal digits spell. -/
def charOfHex? (digits : Text) : Option Char := do
  let n ← Json.hexNumber? digits
  if n.isValidChar then some (Char.ofNat n) else none

/-- The character that a backslash and this letter stand for. -/
def escaped? (c : Char) : Option Char :=
  if c = '\x22' ∨ c = '\\' then some c
  else if c = 'b' then some '\x08'
  else if c = 'f' then some '\x0c'
  else if c = 'n' then some '\n'
  else if c = 'r' then some '\r'
  else if c = 't' then some '\t'
  else none

/-- Puts a character in front of the text that was read. -/
def andThen (c : Char) (r : Option (Text × Text)) : Option (Text × Text) :=
  r.map fun (content, rest) => (c :: content, rest)

/-- Takes a text with escapes behind its opening mark. -/
def basicBody : Text → Option (Text × Text)
  | [] => none
  | ['\\'] => none
  | '\\' :: 'u' :: a :: b :: c :: d :: rest =>
    (charOfHex? [a, b, c, d]).bind fun x => andThen x (basicBody rest)
  | '\\' :: 'U' :: a :: b :: c :: d :: e :: f :: g :: h :: rest =>
    (charOfHex? [a, b, c, d, e, f, g, h]).bind fun x => andThen x (basicBody rest)
  | '\\' :: e :: rest => (escaped? e).bind fun x => andThen x (basicBody rest)
  | c :: rest =>
    if c = '\x22' then some ([], rest)
    else if isPlain c then andThen c (basicBody rest)
    else none

/-- Takes a literal text behind its opening mark. -/
def literalBody : Text → Option (Text × Text)
  | [] => none
  | c :: rest =>
    if c = '\'' then some ([], rest)
    else if isPlain c then andThen c (literalBody rest)
    else none

/-- The end of a text on several lines, behind the first three marks that close it: up to two
more marks belong to the text. -/
def closing (mark : Char) (rest : Text) : Text × Text :=
  let extra := (rest.take 2).takeWhile (· == mark)
  (extra, rest.drop extra.length)

/-- Where the reading of a text on several lines stands towards a backslash at the end of a
line. -/
inductive Fold where
  /-- There is none. -/
  | outside
  /-- It has come, the line break has not. -/
  | before
  /-- The line break has come, the next word has not. -/
  | behind
  deriving DecidableEq

/-- Takes a text with escapes on several lines behind its opening marks. -/
def basicLines (fold : Fold) : Text → Option (Text × Text)
  | [] => none
  | '\n' :: rest =>
    if fold = .outside then andThen '\n' (basicLines .outside rest) else basicLines .behind rest
  | '\r' :: '\n' :: rest =>
    if fold = .outside then andThen '\n' (basicLines .outside rest) else basicLines .behind rest
  | '\\' :: 'u' :: a :: b :: c :: d :: rest =>
    if fold = .before then none
    else (charOfHex? [a, b, c, d]).bind fun x => andThen x (basicLines .outside rest)
  | '\\' :: 'U' :: a :: b :: c :: d :: e :: f :: g :: h :: rest =>
    if fold = .before then none
    else
      (charOfHex? [a, b, c, d, e, f, g, h]).bind fun x => andThen x (basicLines .outside rest)
  | '\\' :: '\n' :: rest => if fold = .before then none else basicLines .behind rest
  | '\\' :: '\r' :: '\n' :: rest => if fold = .before then none else basicLines .behind rest
  | '\\' :: e :: rest =>
    if fold = .before then none
    else if e = ' ' ∨ e = '\t' then basicLines .before rest
    else (escaped? e).bind fun x => andThen x (basicLines .outside rest)
  | '\x22' :: '\x22' :: '\x22' :: rest =>
    if fold = .before then none else some (closing '\x22' rest)
  | c :: rest =>
    if fold ≠ .outside ∧ (c = ' ' ∨ c = '\t') then basicLines fold rest
    else if fold = .before ∨ c = '\\' ∨ !isPlain c then none
    else andThen c (basicLines .outside rest)

/-- Takes a literal text on several lines behind its opening marks. -/
def literalLines : Text → Option (Text × Text)
  | [] => none
  | '\r' :: '\n' :: rest => andThen '\n' (literalLines rest)
  | '\'' :: '\'' :: '\'' :: rest => some (closing '\'' rest)
  | c :: rest =>
    if c = '\n' ∨ isPlain c then andThen c (literalLines rest) else none

/-- A text without the line break in front, if there is one. -/
def dropLineBreak : Text → Text
  | '\n' :: rest => rest
  | '\r' :: '\n' :: rest => rest
  | t => t

/-- Takes a quoted text on one line. -/
def quotedLine : Reader Text := fun t =>
  match t with
  | '\x22' :: rest => basicBody rest
  | '\'' :: rest => literalBody rest
  | _ => none

/-- Takes a quoted text on one or on several lines. -/
def quoted : Reader Text := fun t =>
  match t with
  | '\x22' :: '\x22' :: '\x22' :: rest => basicLines .outside (dropLineBreak rest)
  | '\'' :: '\'' :: '\'' :: rest => literalLines (dropLineBreak rest)
  | t => quotedLine t

end SchemaDelta.Toml
