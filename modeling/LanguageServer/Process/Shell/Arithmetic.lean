import LanguageServer.Process.Shell.Printing

/-! Arithmetic expressions of scripts over whole numbers. -/

namespace LanguageServer.Shell

/-- A number, a name or an operator of an expression. -/
inductive Term where
  | number (value : Int)
  | name (text : List Char)
  | operator (text : String)
  deriving DecidableEq, Repr

/-- The operators of expressions, those of two characters first. -/
def termOperators : List String :=
  -- The longest one that fits is taken.
  ["||", "&&", "==", "!=", "<=", ">=", "<<", ">>", "|", "^", "&", "<", ">", "+", "-", "*", "/", "%",
    "!", "~", "(", ")"]

/-- The terms of an expression, none if it has other characters. -/
def terms : Nat → List Char → Option (List Term)
  -- The bound is the number of characters, of which every term takes at least one.
  | 0, _ => none
  | _ + 1, [] => some []
  | bound + 1, first :: rest =>
    let isWord (character : Char) : Bool := character.isAlphanum || character = '_'
    let text := first :: rest
    let word := text.takeWhile isWord
    if first = ' ' || first = '\t' || first = '\n' then terms bound rest
    else if first.isDigit then
      (terms bound (text.drop word.length)).map (.number (baseNumber word) :: ·)
    else if isWord first then (terms bound (text.drop word.length)).map (.name word :: ·)
    else do
      let operator ← termOperators.find? fun operator => operator.toList.isPrefixOf text
      let others ← terms bound (text.drop operator.length)
      return .operator operator :: others

/-- A truth value as a number. -/
def ofTruth (holds : Bool) : Int :=
  -- Everything but zero counts as true.
  if holds then 1 else 0

/-- How tightly an operator between two operands binds. -/
def bindingOf? : String → Option Nat
  -- Operators of the same strength bind to the left.
  | "||" => some 1
  | "&&" => some 2
  | "|" => some 3
  | "^" => some 4
  | "&" => some 5
  | "==" | "!=" => some 6
  | "<" | "<=" | ">" | ">=" => some 7
  | "<<" | ">>" => some 8
  | "+" | "-" => some 9
  | "*" | "/" | "%" => some 10
  | _ => none

/-- What an operator makes of two numbers, none for a division by zero. -/
def combine? (operator : String) (left right : Int) : Option Int :=
  -- Division goes toward zero.
  match operator with
  | "||" => some (ofTruth (left ≠ 0 || right ≠ 0))
  | "&&" => some (ofTruth (left ≠ 0 && right ≠ 0))
  | "==" => some (ofTruth (left = right))
  | "!=" => some (ofTruth (left ≠ right))
  | "<" => some (ofTruth (left < right))
  | "<=" => some (ofTruth (left ≤ right))
  | ">" => some (ofTruth (right < left))
  | ">=" => some (ofTruth (right ≤ left))
  | "<<" => some (left * Int.pow 2 right.toNat)
  | ">>" => some (left >>> right.toNat)
  | "+" => some (left + right)
  | "-" => some (left - right)
  | "*" => some (left * right)
  | "/" => if right = 0 then none else some (left.tdiv right)
  | "%" => if right = 0 then none else some (left.tmod right)
  | "|" => some ((left.toNat ||| right.toNat : Nat) : Int)
  | "^" => some ((left.toNat ^^^ right.toNat : Nat) : Int)
  | "&" => some ((left.toNat &&& right.toNat : Nat) : Int)
  | _ => none

mutual

/-- The value of an expression whose operators bind at least so tightly, and the terms behind it. -/
def expression? (value : List Char → Int) : Nat → Nat → List Term → Option (Int × List Term)
  -- The bound is above the number of terms.
  | 0, _, _ => none
  | bound + 1, least, terms => do
    let (left, rest) ← operand? value bound terms
    continued? value bound least left rest

/-- The value of an expression behind its first operand. -/
def continued? (value : List Char → Int) :
    Nat → Nat → Int → List Term → Option (Int × List Term)
  -- A weaker operator ends the expression.
  | 0, _, _, _ => none
  | bound + 1, least, left, .operator operator :: rest =>
    match bindingOf? operator with
    | none => some (left, .operator operator :: rest)
    | some binding =>
      if binding < least then some (left, .operator operator :: rest)
      else do
        let (right, rest) ← expression? value bound (binding + 1) rest
        continued? value bound least (← combine? operator left right) rest
  | _ + 1, _, left, rest => some (left, rest)

/-- The value of an operand. -/
def operand? (value : List Char → Int) : Nat → List Term → Option (Int × List Term)
  -- Signs and negations stand in front.
  | 0, _ => none
  | _ + 1, .number number :: rest => some (number, rest)
  | _ + 1, .name name :: rest => some (value name, rest)
  | bound + 1, .operator "(" :: rest => do
    let (inner, rest) ← expression? value bound 0 rest
    match rest with
    | .operator ")" :: rest => return (inner, rest)
    | _ => none
  | bound + 1, .operator "-" :: rest => do
    let (inner, rest) ← operand? value bound rest
    return (-inner, rest)
  | bound + 1, .operator "+" :: rest => operand? value bound rest
  | bound + 1, .operator "!" :: rest => do
    let (inner, rest) ← operand? value bound rest
    return (ofTruth (inner = 0), rest)
  | bound + 1, .operator "~" :: rest => do
    let (inner, rest) ← operand? value bound rest
    return (-inner - 1, rest)
  | _ + 1, _ => none

end

/-- The value of an expression, given the values of variables. -/
def evaluate? (value : List Char → Int) (text : List Char) : Option Int := do
  -- Nothing may stand behind the expression, and nothing at all is zero.
  match ← terms (text.length + 1) text with
  | [] => return 0
  | terms =>
    match ← expression? value (3 * terms.length + 3) 0 terms with
    | (result, []) => return Int.bmod result 18446744073709551616
    | _ => none

end LanguageServer.Shell
