import EntityModel.Expression.Basic
import EntityModel.Text.Blank

/-!
# Tokens of expressions

The text of an expression is cut into tokens, each with the offset of its first byte. Blanks
separate tokens. A string stands in single or double quotes, its own quote written twice; an
integer is a run of digits, possibly after a minus sign; a name is a run of ASCII letters, digits
and underscores that starts with no digit. Any other character is foreign to the language.
-/

namespace EntityModel

/-- A token. -/
inductive Token where
  | identifier (name : String)
  | string (s : String)
  | integer (n : Int64)
  | dot
  | comma
  | openParen
  | closeParen
  | openBracket
  | closeBracket
deriving DecidableEq, Repr

/-- The words for a token. -/
def Token.words : Token → String
  | .identifier name => s!"identifier '{name}'"
  | .string s => s!"string '{s}'"
  | .integer n => s!"integer {int64Text n}"
  | .dot => "'.'"
  | .comma => "','"
  | .openParen => "'('"
  | .closeParen => "')'"
  | .openBracket => "'['"
  | .closeBracket => "']'"

/-- The words for the token found at some place, if there is one. -/
def foundWords : Option Token → String
  | some t => t.words
  | none => "end of expression"

/-- A token and the offset of its first byte. -/
structure Lexeme where
  token : Token
  offset : Nat
deriving DecidableEq, Repr

/-! ### Faults -/

/-- How a text tries to leave the language. -/
inductive Violation where
  | foreignChar (c : Char) (offset : Nat)
  | construction
  | unknownFunction (name : String)
  | tooDeep (levels : Nat)
  | memberOfCall (function : Builtin)
  | methodCall (name : String)
  | callOfPath
deriving DecidableEq, Repr

/-- The wording of a violation. -/
def Violation.message : Violation → String
  | .foreignChar c offset => s!"'{c}' at offset {offset} is not part of the expression language"
  | .construction => "object construction is not permitted"
  | .unknownFunction name => s!"'{name}' is not a built-in function"
  | .tooDeep levels => s!"function calls nest deeper than {levels} levels"
  | .memberOfCall function => s!"member access on the result of {function.name}() is not permitted"
  | .methodCall name => s!"method invocation '{name}()' is not permitted"
  | .callOfPath => "method invocation is not permitted"

/-- How a text within the language is malformed; `found` is the token at the place, if any. -/
inductive SyntaxFault where
  | unterminatedString
  | notAnInteger (digits : String)
  | unexpected (found : Option Token)
  | noSeparator (found : Option Token)
  | noName (found : Option Token)
  | noIndex (found : Option Token)
  | negativeIndex (n : Int64)
  | expected (token : Token) (found : Option Token)
deriving DecidableEq, Repr

/-- The wording of a fault. -/
def SyntaxFault.message : SyntaxFault → String
  | .unterminatedString => "unterminated string literal"
  | .notAnInteger digits => s!"'{digits}' is not an integer"
  | .unexpected found => s!"unexpected {foundWords found}"
  | .noSeparator found => s!"expected ',' or ')', found {foundWords found}"
  | .noName found => s!"expected an attribute name, found {foundWords found}"
  | .noIndex found => s!"expected a list index, found {foundWords found}"
  | .negativeIndex n => s!"{int64Text n} is not a list index"
  | .expected token found => s!"expected {token.words}, found {foundWords found}"

/-- Why a text is not an expression. -/
inductive ParseError where
  | violation (v : Violation)
  | malformed (offset : Nat) (fault : SyntaxFault)
deriving DecidableEq, Repr

/-- The wording of an error about a text. -/
def ParseError.message (source : String) : ParseError → String
  | .violation v => s!"expression '{source}' leaves the sandbox: {v.message}"
  | .malformed offset fault =>
    s!"expression '{source}' is malformed at offset {offset}: {fault.message}"

/-! ### Cutting a text -/

namespace Token

/-- The token of a punctuation character. -/
def ofPunctuation? (c : Char) : Option Token :=
  match c with
  | '.' => some .dot
  | ',' => some .comma
  | '(' => some .openParen
  | ')' => some .closeParen
  | '[' => some .openBracket
  | ']' => some .closeBracket
  | _ => none

/-- The number of bytes of characters. -/
def byteWidth (cs : List Char) : Nat :=
  cs.foldl (fun n c => n + c.utf8Size) 0

/-- Read a string after its opening quote: the characters between the quotes as they are spelled,
with every quote doubled, and what follows the closing quote. -/
def readQuoted (quote : Char) : List Char → Option (List Char × List Char)
  | [] => none
  | c :: cs =>
    if c = quote then
      match cs with
      | [] => some ([], [])
      | d :: rest =>
        if d = quote then
          (readQuoted quote rest).map fun (inside, after) => (c :: d :: inside, after)
        else some ([], d :: rest)
    else (readQuoted quote cs).map fun (inside, after) => (c :: inside, after)

/-- The string of a spelling: every doubled quote stands for one. -/
def unquote (quote : Char) : List Char → List Char
  | [] => []
  | c :: cs =>
    if c = quote then
      match cs with
      | [] => [c]
      | _ :: rest => c :: unquote quote rest
    else c :: unquote quote cs

theorem readQuoted_eq_append {quote : Char} {cs inside after : List Char}
    (h : readQuoted quote cs = some (inside, after)) : cs = inside ++ quote :: after := by
  fun_induction readQuoted quote cs generalizing inside after with
  | case1 => simp at h
  | case2 => simp_all
  | case3 rest ih =>
    obtain ⟨⟨a, b⟩, h', heq⟩ := Option.map_eq_some_iff.1 h
    simp only [Prod.mk.injEq] at heq
    obtain ⟨rfl, rfl⟩ := heq
    rw [ih h']; rfl
  | case4 d rest hd =>
    simp only [Option.some.injEq, Prod.mk.injEq] at h
    obtain ⟨rfl, rfl⟩ := h
    rfl
  | case5 c cs hc ih =>
    obtain ⟨⟨a, b⟩, h', heq⟩ := Option.map_eq_some_iff.1 h
    simp only [Prod.mk.injEq] at heq
    obtain ⟨rfl, rfl⟩ := heq
    rw [ih h']; rfl

/-- Cut characters into tokens; `offset` is the number of bytes before them. -/
def scan (offset : Nat) (cs : List Char) : Except ParseError (List Lexeme) :=
  match cs with
  | [] => .ok []
  | c :: cs =>
    if isBlank c then scan (offset + c.utf8Size) cs
    else
      match ofPunctuation? c with
      | some t => (scan (offset + c.utf8Size) cs).map (⟨t, offset⟩ :: ·)
      | none =>
        if c = '\'' ∨ c = '"' then
          match _h : readQuoted c cs with
          | none => .error (.malformed offset .unterminatedString)
          | some (inside, after) =>
            let token := Token.string (String.ofList (unquote c inside))
            (scan (offset + byteWidth (c :: inside) + c.utf8Size) after).map (⟨token, offset⟩ :: ·)
        else if c.isDigit || c = '-' then
          let digits := c :: cs.takeWhile Char.isDigit
          match readInt64 digits with
          | .error _ => .error (.malformed offset (.notAnInteger (String.ofList digits)))
          | .ok n =>
            (scan (offset + byteWidth digits) (cs.dropWhile Char.isDigit)).map
              (⟨.integer n, offset⟩ :: ·)
        else if isIdentifierChar c then
          let name := c :: cs.takeWhile isIdentifierChar
          (scan (offset + byteWidth name) (cs.dropWhile isIdentifierChar)).map
            (⟨.identifier (String.ofList name), offset⟩ :: ·)
        else .error (.violation (.foreignChar c offset))
termination_by cs.length
decreasing_by
  · simp
  · simp
  · rw [readQuoted_eq_append _h]
    simp only [List.length_cons, List.length_append]
    omega
  · have := (List.dropWhile_suffix (l := cs) Char.isDigit).length_le
    simp only [List.length_cons]
    omega
  · have := (List.dropWhile_suffix (l := cs) isIdentifierChar).length_le
    simp only [List.length_cons]
    omega

/-- The tokens of a text. -/
def tokenize (source : String) : Except ParseError (List Lexeme) :=
  scan 0 source.toList

end Token

end EntityModel
