import FlagScale.Posix.Shell
import FlagScale.Posix.Disk

/-!
# `test`, `[` and `if`

What the stop script's first command does once the shell has read it into tokens.

`test` decides by the number of its operands (XCU `test`, "Algorithm"): none is false,
one is true when it is not empty, two are `! x` or a unary primary, three a binary primary
or `! a b` or `( a )`, four `! a b c` or `( a b )`.  Where POSIX leaves the result
unspecified, and for more than four operands, the model gives status 2, the usage error
bash reports when the operands are not an expression.  `[` is `test` with a last operand
`]`.  File primaries look the path up on a `Disk`.

`ifStatement` reads `if C; then T else E fi` at the head of a token list: the reserved
words count only in command position and outside a nested `if`, the condition is one
simple command whose words have no expansions, and the statement runs `T` exactly when
that command's status is 0.
-/

namespace FlagScale
namespace Posix

/-- A truth value as an exit status. -/
def ofBool (b : Bool) : Nat := if b then 0 else 1

@[simp] theorem ofBool_eq_zero {b : Bool} : ofBool b = 0 ↔ b = true := by
  cases b <;> simp [ofBool]

/-- `!`: true and false swap, an error stays an error. -/
def negate : Nat → Nat
  | 0 => 1
  | 1 => 0
  | n => n

namespace Test

def unaryPrimaries : List String :=
  ["-b", "-c", "-d", "-e", "-f", "-g", "-h", "-L", "-n", "-p", "-r", "-S", "-s", "-t", "-u", "-w",
    "-x", "-z"]

def binaryPrimaries : List String := ["=", "!=", "-eq", "-ne", "-gt", "-ge", "-lt", "-le"]

variable (d : Disk)

/-- A unary primary on the disk.  The disk holds files and directories only, so the tests
for devices, pipes, sockets, links and terminals are false; the permission tests read a
file's owner bits and take a directory to be accessible. -/
def unary (op arg : String) : Bool :=
  let e := d.read arg
  let bit (b : Nat) : Bool := match e with
    | some (.file _ m) => m &&& b != 0
    | some .dir => b ≤ 0o400
    | none => false
  if op = "-n" then arg ≠ ""
  else if op = "-z" then arg = ""
  else if op = "-e" then e.isSome
  else if op = "-f" then d.isFile (d.locate arg)
  else if op = "-d" then d.isDir (d.locate arg)
  else if op = "-s" then (match e with
    | some (.file c _) => c ≠ ""
    | some .dir => true
    | none => false)
  else if op = "-r" then bit 0o400
  else if op = "-w" then bit 0o200
  else if op = "-x" then bit 0o100
  else if op = "-u" then bit 0o4000
  else if op = "-g" then bit 0o2000
  else false

/-- A binary primary; an operand that is not an integer makes the integer comparisons an
error. -/
def binary (op a b : String) : Nat :=
  if op = "=" then ofBool (a = b)
  else if op = "!=" then ofBool (a ≠ b)
  else match a.toInt?, b.toInt? with
    | some x, some y =>
      ofBool (if op = "-eq" then x = y else if op = "-ne" then x ≠ y else if op = "-gt" then x > y
        else if op = "-ge" then x ≥ y else if op = "-lt" then x < y else x ≤ y)
    | _, _ => 2

def test1 (a : String) : Nat := ofBool (a ≠ "")

def test2 (a b : String) : Nat :=
  if a = "!" then negate (test1 b)
  else if a ∈ unaryPrimaries then ofBool (unary d a b)
  else 2

def test3 (a b c : String) : Nat :=
  if b ∈ binaryPrimaries then binary b a c
  else if a = "!" then negate (test2 d b c)
  else if a = "(" ∧ c = ")" then test1 b
  else 2

def test4 (a b c e : String) : Nat :=
  if a = "!" then negate (test3 d b c e)
  else if a = "(" ∧ e = ")" then test2 d b c
  else 2

end Test

open Test

/-- `test` with its operands. -/
def test (d : Disk) : List String → Nat
  | [] => 1
  | [a] => test1 a
  | [a, b] => test2 d a b
  | [a, b, c] => test3 d a b c
  | [a, b, c, e] => test4 d a b c e
  | _ => 2

/-- `[`: `test` when the last operand is `]`. -/
def bracket (d : Disk) (args : List String) : Nat :=
  if args.getLast? = some "]" then test d args.dropLast else 2

/-- `[ -f p ]` is true exactly when `p` is a regular file. -/
theorem bracket_file (d : Disk) (p : String) :
    bracket d ["-f", p, "]"] = ofBool (d.isFile (d.locate p)) := by
  simp [bracket, test, test2, unaryPrimaries, unary]

/-- A path that the shell splits into two words makes `[ -f ... ]` a usage error, whatever
the disk holds. -/
theorem bracket_file_split (d : Disk) {a b : String} (ha : a ∉ binaryPrimaries) :
    bracket d ["-f", a, b, "]"] = 2 := by
  simp [bracket, test, test3, ha]

/-! ## `if` -/

/-- The value of a word with no expansions. -/
def Token.value : Token → Option String
  | .word ps => wordValue ps
  | _ => none

@[simp] theorem value_plain (w : String) : (Token.plain w).value = some w := wordValue_lits w false

/-- A token after which a new command starts. -/
def Token.separates : Token → Bool
  | .newline => true
  | .op o => o ∈ [";", "&", "&&", "||", "|", "(", ";;"]
  | _ => false

/-- A reserved word after which a new command starts. -/
def opensList (w : String) : Bool := w ∈ ["if", "then", "else", "elif", "do", "while", "until", "\x7b", "!"]

/-- Split at the first of the reserved words `rs` in command position outside a nested
`if ... fi`: the tokens before it, the word, and the tokens after it.  `depth` counts the
open nested `if`s and `atStart` says whether the next token is in command position. -/
def splitAt (rs : List String) : Nat → Bool → List Token → Option (List Token × String × List Token)
  | _, _, [] => none
  | depth, atStart, t :: ts =>
    match (if atStart then t.value else none) with
    | some w =>
      if depth = 0 ∧ w ∈ rs then some ([], w, ts)
      else (splitAt rs (if w = "if" then depth + 1 else if w = "fi" then depth - 1 else depth)
        (opensList w) ts).map fun r => (t :: r.1, r.2)
    | none => (splitAt rs depth t.separates ts).map fun r => (t :: r.1, r.2)

/-- The words of one simple command ended by `;` or a newline, when none has an expansion. -/
def simpleCommand : List Token → Option (List String)
  | [] => none
  | [t] => if t = .op ";" ∨ t = .newline then some [] else none
  | t :: ts => do
    let v ← t.value
    let vs ← simpleCommand ts
    pure (v :: vs)

/-- The list an `if` statement at the head of `ts` runs, and the tokens after its `fi`;
`status` is the exit status of a simple command.  `elif` is not read. -/
def ifStatement (status : List String → Nat) : List Token → Option (List Token × List Token)
  | [] => none
  | t :: ts =>
    if t.value = some "if" then do
      let (cond, _, ts) ← splitAt ["then"] 0 true ts
      let args ← simpleCommand cond
      let (thenPart, r, ts) ← splitAt ["else", "elif", "fi"] 0 true ts
      if r = "fi" then pure (if status args = 0 then thenPart else [], ts)
      else if r = "else" then do
        let (elsePart, _, rest) ← splitAt ["fi"] 0 true ts
        pure (if status args = 0 then thenPart else elsePart, rest)
      else none
    else none

/-! ## And-lists -/

/-- The reserved words of the shell grammar. -/
def reservedWords : List String :=
  ["!", "\x7b", "\x7d", "case", "do", "done", "elif", "else", "esac", "fi", "for", "if", "in", "then",
    "until", "while"]

/-- The words of a simple command with no expansions: not empty, and its first word neither
an assignment nor a reserved word, so that it names the command to run. -/
def commandWords : List Token → Option (List String)
  | [] => none
  | t :: ts =>
    let assigns := match t with
      | .word ps => (assignment ps).isSome
      | _ => false
    if assigns || t.value.any (· ∈ reservedWords) then none else (t :: ts).mapM Token.value

/-- The commands of an and-list `c₁ && c₂ && ...` that ends a line, when each is a simple
command read by `commandWords`. -/
def andList (ts : List Token) : Option (List (List String)) :=
  if ts.getLast? = some .newline then (ts.dropLast.splitOn (.op "&&")).mapM commandWords else none

theorem mapM_value_plain : ∀ ws : List String, (ws.map Token.plain).mapM Token.value = some ws
  | [] => rfl
  | w :: ws => by rw [List.map_cons, List.mapM_cons, mapM_value_plain ws]; simp

theorem mapM_value_quoted : ∀ ws : List String,
    (ws.map fun w => Token.word (lits w true)).mapM Token.value = some ws
  | [] => rfl
  | w :: ws => by rw [List.map_cons, List.mapM_cons, mapM_value_quoted ws]; simp [Token.value, wordValue_lits]

/-- A plain first word with no `=` that is not a reserved word names the command. -/
theorem commandWords_plain {w : String} (hw : assignment (lits w false) = none) (hr : w ∉ reservedWords)
    {rest : List Token} {ws : List String} (h : rest.mapM Token.value = some ws) :
    commandWords (Token.plain w :: rest) = some (w :: ws) := by
  have hv : (Token.plain w).value = some w := value_plain w
  simp only [commandWords, Token.plain, hw, Option.isSome_none, Bool.false_or]
  rw [← Token.plain, hv, List.mapM_cons, hv, h]
  simp [hr]

/-- An and-list of token lists with no `&&` of their own. -/
theorem andList_intercalate {tss : List (List Token)} (hne : tss ≠ []) (hop : ∀ ts ∈ tss, .op "&&" ∉ ts) :
    andList ([.op "&&"].intercalate tss ++ [.newline]) = tss.mapM commandWords := by
  rw [andList, if_pos (List.getLast?_concat _), List.dropLast_concat, List.splitOn_intercalate _ _ hop hne]

end Posix
end FlagScale
