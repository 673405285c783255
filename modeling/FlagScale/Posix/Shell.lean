import FlagScale.Python.Str

/-!
# Reading a shell script into tokens

The token recognition of the POSIX shell (XCU 2.3), as a character-level state machine:
blanks separate words, newlines and the operators `& && | || ; ;; < > << >> <& >& <>
<<- >| ( )` are tokens of their own, `#` at the start of a token begins a comment, and a
word is made of unquoted characters, `\`-escaped characters, `'...'` and `"..."` runs,
and the expansions `$name`, `$1`, `$?` (and the other special parameters), `${...}`,
`$(...)` and `` `...` ``.  A here-document operator takes the next word as its delimiter,
and the lines after the next newline, up to the delimiter, are read as its body.

Quote removal is done as the word is read: a word is the list of its `Piece`s, each
character marked with whether it was quoted, each expansion kept as written.  The
contents of `${...}` and `$(...)` are only delimited (by the matching bracket outside
quotes), not read; a `)` of a `case` pattern inside `$(...)` is counted as closing it.

`step` reads one character and returns the tokens it completes, dropping a NUL byte as
the input layers of bash and dash do; `run` folds it over a text.  Two families of lemmas
say what the runner's scripts need: a run of *plain* characters (letters, digits and
`/._-+,:@%=`) is one unquoted word (`reads_plainWord`), and a run of characters other
than `"`, `\`, `$`, `` ` `` and NUL between double quotes is quoted text (`reads_dqChars`).
-/

namespace FlagScale
namespace Posix

/-- One piece of a word. -/
inductive Piece where
  /-- A character, and whether it was quoted. -/
  | lit (c : Char) (quoted : Bool)
  /-- `$name`, `$1`, `$?`, ...: the parameter's name. -/
  | param (name : String) (quoted : Bool)
  /-- `${...}`, `$(...)` or `` `...` ``, as written. -/
  | expansion (text : String) (quoted : Bool)
  deriving DecidableEq

inductive Token where
  | word (pieces : List Piece)
  | op (s : String)
  | newline
  | hereDoc (body : String)
  deriving DecidableEq

/-- What the lexer is in the middle of. -/
inductive Mode where
  | blank
  /-- An unquoted part of a word. -/
  | word
  /-- After an unquoted `\`. -/
  | escape
  | squote
  | dquote
  /-- After a `\` between double quotes. -/
  | dqEscape
  /-- After a `$`; `inDq` if between double quotes. -/
  | dollar (inDq : Bool)
  | name (inDq : Bool) (n : List Char)
  /-- Inside `${` or `$(` up to the matching `close`, with the quoting state of the text. -/
  | nest (inDq : Bool) (close : Char) (depth : Nat) (text : List Char) (sq dq esc : Bool)
  | backquote (inDq : Bool) (text : List Char) (esc : Bool)
  | op (s : List Char)
  | comment
  /-- Reading the body of a here-document up to `delim`; `strip` for `<<-`. -/
  | hereDoc (strip : Bool) (delim : String) (body : List Char) (line : List Char)
  deriving DecidableEq

/-- The lexer's state: its mode, the word being read, whether the next word is a
here-document delimiter (`some strip`), and the here-documents to read after the next
newline. -/
structure Lexer where
  mode : Mode
  cur : Option (List Piece)
  delimNext : Option Bool
  pending : List (Bool × String)
  deriving DecidableEq

namespace Lexer

def init : Lexer := ⟨.blank, none, none, []⟩

def isBlank (c : Char) : Bool := c = ' ' || c = '\t'

def isOpStart (c : Char) : Bool := "&|;<>()".data.elem c

def isOperator (s : List Char) : Bool :=
  (["&", "&&", "|", "||", ";", ";;", "<", ">", "<<", ">>", "<&", ">&", "<>", "<<-", ">|", "(", ")"].map
    String.data).elem s

/-- The special parameters besides the digits. -/
def isSpecialParam (c : Char) : Bool := "@*#?-$!".data.elem c

/-- The text of a here-document delimiter: the word with its quotes removed. -/
def delimText (ps : List Piece) : String :=
  String.join (ps.map fun
    | .lit c _ => ⟨[c]⟩
    | .param n _ => "$" ++ n
    | .expansion t _ => t)

/-- The mode at the start of a line: the body of the first pending here-document, if any. -/
def lineMode : List (Bool × String) → Mode
  | [] => .blank
  | (strip, d) :: _ => .hereDoc strip d [] []

/-- Where an expansion returns to. -/
def back (inDq : Bool) : Mode := if inDq then .dquote else .word

variable (s : Lexer)

def addPiece (p : Piece) (m : Mode) : Lexer := { s with mode := m, cur := some (s.cur.getD [] ++ [p]) }

/-- The here-documents to read after the next newline, once the word `ps` is read. -/
def queued (ps : List Piece) : List (Bool × String) :=
  match s.delimNext with
  | some strip => s.pending ++ [(strip, delimText ps)]
  | none => s.pending

/-- The word being read is complete. -/
def endWord : Lexer × List Token :=
  match s.cur with
  | none => (s, [])
  | some ps => ({ s with cur := none, delimNext := none, pending := s.queued ps }, [.word ps])

def emitOp (o : List Char) : Lexer × List Token :=
  let dn := if o = ['<', '<'] then some false else if o = ['<', '<', '-'] then some true else none
  ({ s with mode := .blank, delimNext := dn }, [.op ⟨o⟩])

/-- A newline token; the pending here-documents come next. -/
def newlineTok : Lexer × List Token :=
  ({ s with mode := lineMode s.pending, delimNext := none }, [.newline])

/-- A character in an unquoted part of a word. -/
def wordChar (c : Char) : Lexer :=
  if c = '\\' then { s with mode := .escape }
  else if c = '\'' then { s with mode := .squote }
  else if c = '"' then { s with mode := .dquote }
  else if c = '$' then { s with mode := .dollar false }
  else if c = '`' then { s with mode := .backquote false [] false }
  else s.addPiece (.lit c false) .word

/-- A character with no token in progress. -/
def startChar (c : Char) : Lexer × List Token :=
  if c = '\n' then s.newlineTok
  else if isBlank c then ({ s with mode := .blank }, [])
  else if isOpStart c then ({ s with mode := .op [c] }, [])
  else if c = '#' then ({ s with mode := .comment }, [])
  else if c = '\\' then ({ s with mode := .escape }, [])
  else ({ s with cur := some (s.cur.getD []) }.wordChar c, [])

/-- A character after an unquoted part of a word: a blank, a newline or an operator
character ends the word. -/
def wordStep (c : Char) : Lexer × List Token :=
  if c = '\n' || isBlank c || isOpStart c then
    let r := s.endWord
    let r' := r.1.startChar c
    (r'.1, r.2 ++ r'.2)
  else (s.wordChar c, [])

/-- A character between double quotes. -/
def dqStep (c : Char) : Lexer :=
  if c = '"' then { s with mode := .word }
  else if c = '\\' then { s with mode := .dqEscape }
  else if c = '$' then { s with mode := .dollar true }
  else if c = '`' then { s with mode := .backquote true [] false }
  else s.addPiece (.lit c true) .dquote

/-- Read `c` again in the mode an expansion returns to. -/
def resume (inDq : Bool) (c : Char) : Lexer × List Token :=
  if inDq then (s.dqStep c, []) else s.wordStep c

/-- A character of the text of `${...}` or `$(...)`. -/
def nestStep (inDq : Bool) (close : Char) (depth : Nat) (text : List Char) (sq dq esc : Bool)
    (c : Char) : Lexer :=
  let text := text ++ [c]
  let keep (depth : Nat) (sq dq esc : Bool) : Lexer :=
    { s with mode := .nest inDq close depth text sq dq esc }
  let opening := if close = ')' then '(' else '{'
  if esc then keep depth sq dq false
  else if sq then keep depth (c != '\'') dq false
  else if c = '\\' then keep depth sq dq true
  else if dq then keep depth sq (c != '"') false
  else if c = '\'' then keep depth true dq false
  else if c = '"' then keep depth sq true false
  else if c = opening then keep (depth + 1) sq dq false
  else if c = close then
    if depth = 0 then s.addPiece (.expansion ⟨text⟩ inDq) (back inDq) else keep (depth - 1) sq dq false
  else keep depth sq dq false

/-- A character of a here-document's body. -/
def hereDocStep (strip : Bool) (delim : String) (body line : List Char) (c : Char) :
    Lexer × List Token :=
  if c = '\n' then
    let l := if strip then line.dropWhile (· = '\t') else line
    if (⟨l⟩ : String) = delim then
      ({ s with mode := lineMode s.pending.tail, pending := s.pending.tail }, [.hereDoc ⟨body⟩])
    else ({ s with mode := .hereDoc strip delim (body ++ l ++ ['\n']) [] }, [])
  else ({ s with mode := .hereDoc strip delim body (line ++ [c]) }, [])

/-- Read one character: the new state and the tokens it completes.  A NUL byte is dropped
wherever it stands, as the input layers of bash and dash drop it. -/
def step (c : Char) : Lexer × List Token :=
  if c = '\x00' then (s, []) else
  match s.mode with
  | .blank => s.startChar c
  | .word => s.wordStep c
  | .escape =>
    (if c = '\n' then { s with mode := if s.cur.isSome then .word else .blank }
      else s.addPiece (.lit c true) .word, [])
  | .squote => (if c = '\'' then { s with mode := .word } else s.addPiece (.lit c true) .squote, [])
  | .dquote => (s.dqStep c, [])
  | .dqEscape =>
    (if c = '\n' then { s with mode := .dquote }
      else if c = '$' || c = '`' || c = '"' || c = '\\' then s.addPiece (.lit c true) .dquote
      else (s.addPiece (.lit '\\' true) .dquote).addPiece (.lit c true) .dquote, [])
  | .dollar inDq =>
    if c = '{' then ({ s with mode := .nest inDq '}' 0 ['$', '{'] false false false }, [])
    else if c = '(' then ({ s with mode := .nest inDq ')' 0 ['$', '('] false false false }, [])
    else if c.isAlpha || c = '_' then ({ s with mode := .name inDq [c] }, [])
    else if c.isDigit || isSpecialParam c then (s.addPiece (.param ⟨[c]⟩ inDq) (back inDq), [])
    else (s.addPiece (.lit '$' inDq) (back inDq)).resume inDq c
  | .name inDq n =>
    if c.isAlphanum || c = '_' then ({ s with mode := .name inDq (n ++ [c]) }, [])
    else (s.addPiece (.param ⟨n⟩ inDq) (back inDq)).resume inDq c
  | .nest inDq close depth text sq dq esc => (s.nestStep inDq close depth text sq dq esc c, [])
  | .backquote inDq text esc =>
    if esc then ({ s with mode := .backquote inDq (text ++ [c]) false }, [])
    else if c = '\\' then ({ s with mode := .backquote inDq (text ++ [c]) true }, [])
    else if c = '`' then (s.addPiece (.expansion ⟨'`' :: text ++ ['`']⟩ inDq) (back inDq), [])
    else ({ s with mode := .backquote inDq (text ++ [c]) false }, [])
  | .op o =>
    if isOperator (o ++ [c]) then ({ s with mode := .op (o ++ [c]) }, [])
    else
      let r := s.emitOp o
      let r' := r.1.startChar c
      (r'.1, r.2 ++ r'.2)
  | .comment => if c = '\n' then s.newlineTok else (s, [])
  | .hereDoc strip delim body line => s.hereDocStep strip delim body line c

end Lexer

/-- Read a list of characters: the final state and the tokens completed on the way. -/
def run : Lexer → List Char → Lexer × List Token
  | s, [] => (s, [])
  | s, c :: cs =>
    let r := s.step c
    let r' := run r.1 cs
    (r'.1, r.2 ++ r'.2)

/-- How the shell reads a script: the tokens, and the state at its end. -/
def lex (text : String) : Lexer × List Token := run .init text.data

/-- The characters of `w` as pieces, quoted or not. -/
def lits (w : String) (quoted : Bool) : List Piece := w.data.map (.lit · quoted)

/-- A word of unquoted characters. -/
def Token.plain (w : String) : Token := .word (lits w false)

/-- The value of a word with no expansions: its characters, quotes removed. -/
def wordValue (ps : List Piece) : Option String :=
  ps.foldr (fun p acc => match p with
    | .lit c _ => acc.map fun v => ⟨c :: v.data⟩
    | _ => none) (some "")

/-- Characters that mean themselves anywhere in an unquoted word. -/
def isPlainChar (c : Char) : Bool := c.isAlphanum || "/._-+,:@%=".data.elem c

/-- A non-empty word of plain characters. -/
def isPlain (w : String) : Bool := w ≠ "" && w.data.all isPlainChar

/-- Characters that mean themselves between double quotes: not `"`, `\`, `$`, a backquote,
or the NUL byte the shell drops. -/
def isDqChar (c : Char) : Bool := c != '"' && c != '\\' && c != '$' && c != '`' && c != '\x00'

/-- A name: a letter or `_`, then letters, digits and `_`. -/
def isVarName (n : String) : Bool :=
  match n.data with
  | [] => false
  | c :: cs => (c.isAlpha || c = '_') && cs.all fun c => c.isAlphanum || c = '_'

/-- A piece that can be part of the name of an assignment word. -/
def Piece.beforeEq : Piece → Bool
  | .lit c false => c != '='
  | _ => false

/-- The variable and the value a word assigns when it stands before a command name: an
unquoted `name=` prefix, and the value of the rest when it has no expansions. -/
def assignment (ps : List Piece) : Option (String × String) :=
  match ps.dropWhile Piece.beforeEq with
  | .lit '=' false :: rest =>
    match wordValue (ps.takeWhile Piece.beforeEq), wordValue rest with
    | some n, some v => if isVarName n then some (n, v) else none
    | _, _ => none
  | _ => none

/-! ## Reading a text in parts -/

theorem run_append (s : Lexer) (a b : List Char) :
    run s (a ++ b) = ((run (run s a).1 b).1, (run s a).2 ++ (run (run s a).1 b).2) := by
  induction a generalizing s with
  | nil => rfl
  | cons c a ih => simp [run, ih, List.append_assoc]

@[simp] theorem run_nil (s : Lexer) : run s [] = (s, []) := rfl

@[simp] theorem wordValue_nil : wordValue [] = some "" := rfl

@[simp] theorem wordValue_lit_cons (c : Char) (q : Bool) (ps : List Piece) :
    wordValue (.lit c q :: ps) = (wordValue ps).map fun v => ⟨c :: v.data⟩ := rfl

theorem wordValue_map_lit (q : Bool) : ∀ cs : List Char, wordValue (cs.map (.lit · q)) = some ⟨cs⟩
  | [] => rfl
  | c :: cs => by simp [wordValue_map_lit q cs]

/-- A word of characters only, quoted or not, has them as its value. -/
theorem wordValue_lits (w : String) (q : Bool) : wordValue (lits w q) = some w :=
  wordValue_map_lit q w.data

theorem beforeEq_of_isVarName {n : String} (hn : isVarName n = true) :
    ∀ p ∈ lits n false, p.beforeEq = true := by
  simp only [lits, List.mem_map]
  rintro _ ⟨c, hc, rfl⟩
  have hc' : c.isAlphanum ∨ c = '_' := by
    unfold isVarName at hn
    split at hn
    · simp at hn
    · rename_i c₀ cs hd
      rw [hd, List.mem_cons] at hc
      simp only [Bool.and_eq_true, Bool.or_eq_true, decide_eq_true_eq, List.all_eq_true] at hn
      rcases hc with rfl | hc
      · exact hn.1.imp_left fun h => by simp [Char.isAlphanum, h]
      · simpa using hn.2 c hc
  rcases hc' with h | rfl
  · have : c ≠ '=' := by rintro rfl; revert h; decide
    simpa [Piece.beforeEq] using this
  · rfl

/-- `name=value`, with the value's characters quoted or not, assigns `value` to `name`. -/
theorem assignment_lits {n : String} (hn : isVarName n = true) (v : String) (q : Bool) :
    assignment (lits n false ++ .lit '=' false :: lits v q) = some (n, v) := by
  have hb := beforeEq_of_isVarName hn
  simp [assignment, List.dropWhile_append_of_pos hb, List.takeWhile_append_of_pos hb, Piece.beforeEq,
    wordValue_lits, hn]

/-! ## Plain characters -/

/-- The characters with a meaning somewhere in the lexer. -/
def specialChars : List Char := "\n \t&|;<>()#\\'\"$`\x7b\x7d\x00".data

theorem isPlainChar_special : ∀ c ∈ specialChars, isPlainChar c = false := by decide

theorem not_special_of_isPlainChar {c : Char} (hc : isPlainChar c = true) : c ∉ specialChars :=
  fun h => by simp [isPlainChar_special c h] at hc

section Plain

variable {c : Char} (hc : isPlainChar c = true)
include hc

theorem isPlainChar_ne : c ≠ '\x00' ∧ c ≠ '\n' ∧ c ≠ '#' ∧ c ≠ '\\' ∧ c ≠ '\'' ∧ c ≠ '"' ∧ c ≠ '$' ∧
    c ≠ '`' ∧ c ≠ '(' ∧ c ≠ ')' ∧ c ≠ '{' ∧ c ≠ '}' := by
  have h := not_special_of_isPlainChar hc
  simp only [specialChars] at h
  refine ⟨?_, ?_, ?_, ?_, ?_, ?_, ?_, ?_, ?_, ?_, ?_, ?_⟩ <;> rintro rfl <;> exact h (by decide)

theorem isBlank_of_isPlainChar : Lexer.isBlank c = false := by
  have h := not_special_of_isPlainChar hc
  simp only [Lexer.isBlank, Bool.or_eq_false_iff, decide_eq_false_iff_not]
  constructor <;> rintro rfl <;> exact h (by decide)

theorem isOpStart_of_isPlainChar : Lexer.isOpStart c = false := by
  have h := not_special_of_isPlainChar hc
  rw [Bool.eq_false_iff]
  intro ho
  have hm : c ∈ "&|;<>()".data := List.elem_iff.mp ho
  simp only [specialChars] at h
  exact h (by revert hm; simp only [List.mem_cons]; rintro (rfl | rfl | rfl | rfl | rfl | rfl | rfl | h) <;>
    first | decide | simp at h)

theorem step_word_plain (ps : List Piece) (dn : Option Bool) (pend : List (Bool × String)) :
    Lexer.step ⟨.word, some ps, dn, pend⟩ c = (⟨.word, some (ps ++ [.lit c false]), dn, pend⟩, []) := by
  obtain ⟨h0, h1, -, h3, h4, h5, h6, h7, -⟩ := isPlainChar_ne hc
  simp [Lexer.step, Lexer.wordStep, Lexer.wordChar, Lexer.addPiece, h0, h1, h3, h4, h5, h6, h7,
    isBlank_of_isPlainChar hc, isOpStart_of_isPlainChar hc]

theorem step_blank_plain (dn : Option Bool) (pend : List (Bool × String)) :
    Lexer.step ⟨.blank, none, dn, pend⟩ c = (⟨.word, some [.lit c false], dn, pend⟩, []) := by
  obtain ⟨h0, h1, h2, h3, h4, h5, h6, h7, -⟩ := isPlainChar_ne hc
  simp [Lexer.step, Lexer.startChar, Lexer.wordChar, Lexer.addPiece, h0, h1, h2, h3, h4, h5, h6, h7,
    isBlank_of_isPlainChar hc, isOpStart_of_isPlainChar hc]

end Plain

theorem step_dquote_dqChar {c : Char} (hc : isDqChar c = true) (ps : List Piece) (dn : Option Bool)
    (pend : List (Bool × String)) :
    Lexer.step ⟨.dquote, some ps, dn, pend⟩ c = (⟨.dquote, some (ps ++ [.lit c true]), dn, pend⟩, []) := by
  simp only [isDqChar, Bool.and_eq_true, bne_iff_ne, ne_eq] at hc
  simp [Lexer.step, Lexer.dqStep, Lexer.addPiece, hc]

/-! ## Runs over plain text -/

/-- Reading `text` from `s` ends in `s'` and completes the tokens `ts`. -/
def Reads (s : Lexer) (text : List Char) (s' : Lexer) (ts : List Token) : Prop :=
  run s text = (s', ts)

namespace Reads

variable {s s₁ s₂ : Lexer} {a b : List Char} {ts us : List Token}

theorem append (h₁ : Reads s a s₁ ts) (h₂ : Reads s₁ b s₂ us) : Reads s (a ++ b) s₂ (ts ++ us) := by
  rw [Reads, run_append, h₁, h₂]

theorem cons {c : Char} (h : s.step c = (s₁, ts)) (h' : Reads s₁ a s₂ us) :
    Reads s (c :: a) s₂ (ts ++ us) := by
  rw [Reads] at h'
  simp only [Reads, run, h, h']

end Reads

namespace Lexer

/-- In an unquoted part of the word `ps`, at the start of a line's commands. -/
def inWord (ps : List Piece) : Lexer := ⟨.word, some ps, none, []⟩

/-- Between double quotes in the word `ps`. -/
def inDquote (ps : List Piece) : Lexer := ⟨.dquote, some ps, none, []⟩

end Lexer

open Lexer

theorem reads_plainChars : ∀ {cs : List Char} (ps : List Piece), (∀ c ∈ cs, isPlainChar c = true) →
    Reads (inWord ps) cs (inWord (ps ++ cs.map (.lit · false))) []
  | [], ps, _ => by simp [Reads, run]
  | c :: cs, ps, h => by
    simpa using Reads.cons (step_word_plain (h c (.head _)) ps none [])
      (reads_plainChars _ fun c' hc' => h c' (.tail _ hc'))

theorem isPlain_iff {w : String} : isPlain w = true ↔ w ≠ "" ∧ ∀ c ∈ w.data, isPlainChar c = true := by
  simp [isPlain]

/-- A plain word read from the start of a command is one unquoted word, not yet complete. -/
theorem reads_plainWord {w : String} (hw : isPlain w = true) : Reads init w.data (inWord (lits w false)) [] := by
  obtain ⟨hne, hall⟩ := isPlain_iff.mp hw
  obtain ⟨c, cs, hd⟩ := List.exists_cons_of_ne_nil (fun h => hne (String.ext h))
  rw [hd] at hall
  simpa [lits, hd] using Reads.cons (step_blank_plain (hall c (.head _)) none [])
    (reads_plainChars [.lit c false] fun c' hc' => hall c' (.tail _ hc'))

theorem reads_dqChars : ∀ {cs : List Char} (ps : List Piece), (∀ c ∈ cs, isDqChar c = true) →
    Reads (inDquote ps) cs (inDquote (ps ++ cs.map (.lit · true))) []
  | [], ps, _ => by simp [Reads, run]
  | c :: cs, ps, h => by
    simpa using Reads.cons (step_dquote_dqChar (h c (.head _)) ps none [])
      (reads_dqChars _ fun c' hc' => h c' (.tail _ hc'))

theorem reads_inWord_newline (ps : List Piece) : Reads (inWord ps) ['\n'] init [.word ps, .newline] := rfl

/-- A plain word that ends a line. -/
theorem reads_plainWord_newline {w : String} (hw : isPlain w = true) :
    Reads init (w.data ++ ['\n']) init [Token.plain w, .newline] :=
  (reads_plainWord hw).append (reads_inWord_newline _)

/-- A literal start that the lexer reads back to the start of a command, then a plain word
and a newline. -/
theorem Reads.plainLine {pre : List Char} {ts : List Token} {w : String} (hpre : Reads init pre init ts)
    (hw : isPlain w = true) : Reads init (pre ++ w.data ++ ['\n']) init (ts ++ [Token.plain w, .newline]) := by
  simpa using hpre.append (reads_plainWord_newline hw)

/-- Lines that each read back to the start of a command, one after another. -/
theorem reads_join {l : List String} {tss : List (List Token)}
    (h : List.Forall₂ (fun (p : String) ts => Reads init p.data init ts) l tss) :
    Reads init (String.join l).data init tss.flatten := by
  rw [Python.join_data]
  induction h with
  | nil => rfl
  | cons hp _ ih => exact hp.append ih

/-! ## Plain words -/

theorem isPlain_append {a b : String} (ha : isPlain a = true) (hb : ∀ c ∈ b.data, isPlainChar c = true) :
    isPlain (a ++ b) = true := by
  obtain ⟨hne, hall⟩ := isPlain_iff.mp ha
  refine isPlain_iff.mpr ⟨fun h => hne ?_, ?_⟩
  · have h' := congrArg String.data h
    simp only [String.data_append, List.append_eq_nil] at h'
    exact String.ext h'.1
  · simp only [String.data_append, List.mem_append]
    rintro c (hc | hc)
    exacts [hall c hc, hb c hc]

theorem isPlain_pathJoin {a b : String} (ha : isPlain a = true) (hb : isPlain b = true) :
    isPlain (Python.pathJoin a b) = true := by
  obtain ⟨-, ha⟩ := isPlain_iff.mp ha
  obtain ⟨hne, hb⟩ := isPlain_iff.mp hb
  refine isPlain_iff.mpr ⟨Python.pathJoin_ne_empty hne, fun c hc => ?_⟩
  rcases Python.mem_pathJoin hc with h | h | rfl
  exacts [ha c h, hb c h, rfl]

/-! ## Command substitution -/

namespace Lexer

/-- Inside `$(...)` in an unquoted part of the word `ps`, with `text` read so far. -/
def inSubst (ps : List Piece) (text : List Char) : Lexer := ⟨.nest false ')' 0 text false false false, some ps, none, []⟩

end Lexer

theorem step_subst_plain {c : Char} (hc : isPlainChar c = true) (ps : List Piece) (text : List Char) :
    (inSubst ps text).step c = (inSubst ps (text ++ [c]), []) := by
  obtain ⟨h0, -, -, h3, h4, h5, -, -, h8, h9, -⟩ := isPlainChar_ne hc
  simp [inSubst, Lexer.step, Lexer.nestStep, h0, h3, h4, h5, h8, h9]

theorem reads_subst_plainChars : ∀ {cs : List Char} (ps : List Piece) (text : List Char),
    (∀ c ∈ cs, isPlainChar c = true) → Reads (inSubst ps text) cs (inSubst ps (text ++ cs)) []
  | [], ps, text, _ => by simp [Reads, run]
  | c :: cs, ps, text, h => by
    simpa using Reads.cons (step_subst_plain (h c (.head _)) ps text)
      (reads_subst_plainChars ps _ fun c' hc' => h c' (.tail _ hc'))

theorem reads_subst_close (ps : List Piece) (text : List Char) :
    Reads (inSubst ps text) [')'] (inWord (ps ++ [.expansion ⟨text ++ [')']⟩ false])) [] := rfl

/-! ## Words separated by blanks

A command line whose words are plain or double-quoted reads word by word: a blank ends the
word in progress and returns to the start of a word, so a run of plain characters and blanks
reads as the words `str.split()` finds in it (`reads_plainBlank`). -/

namespace Lexer

/-- Between words, or after the plain characters `cur` of a word. -/
def plainState (cur : List Char) : Lexer := if cur = [] then init else inWord (cur.map (.lit · false))

end Lexer

/-- What the blank or newline after a command's last word adds: nothing, or a newline. -/
def endTokens (t : Char) : List Token := if t = '\n' then [.newline] else []

@[simp] theorem plainState_nil : plainState [] = init := rfl

section End

variable {t : Char} (ht : t = ' ' ∨ t = '\n')
include ht

theorem reads_init_end : Reads init [t] init (endTokens t) := by
  rcases ht with rfl | rfl <;> rfl

theorem reads_inWord_end (ps : List Piece) : Reads (inWord ps) [t] init (.word ps :: endTokens t) := by
  rcases ht with rfl | rfl <;> rfl

end End

theorem toNat_of_isPlainChar {c : Char} (hc : isPlainChar c = true) : 33 ≤ c.toNat ∧ c.toNat ≤ 126 := by
  simp only [isPlainChar, Bool.or_eq_true] at hc
  rcases hc with h | h
  · simp only [Char.isAlphanum, Char.isAlpha, Char.isUpper, Char.isLower, Char.isDigit, Bool.or_eq_true,
      Bool.and_eq_true, decide_eq_true_eq] at h
    rcases h with (⟨h1, h2⟩ | ⟨h1, h2⟩) | ⟨h1, h2⟩
    · have : 65 ≤ c.toNat ∧ c.toNat ≤ 90 := ⟨h1, h2⟩
      omega
    · have : 97 ≤ c.toNat ∧ c.toNat ≤ 122 := ⟨h1, h2⟩
      omega
    · have : 48 ≤ c.toNat ∧ c.toNat ≤ 57 := ⟨h1, h2⟩
      omega
  · exact (by decide : ∀ c ∈ "/._-+,:@%=".data, 33 ≤ c.toNat ∧ c.toNat ≤ 126) c (List.elem_iff.mp h)

/-- Plain characters are not blanks to `str.split()`. -/
theorem isSpace_of_isPlainChar {c : Char} (hc : isPlainChar c = true) : Python.isSpace c = false := by
  have := toNat_of_isPlainChar hc
  simp only [Python.isSpace, Bool.or_eq_false_iff, Bool.and_eq_false_iff, decide_eq_false_iff_not,
    beq_eq_false_iff_ne]
  omega

theorem step_plainState_plain {c : Char} (hc : isPlainChar c = true) (cur : List Char) :
    (plainState cur).step c = (plainState (cur ++ [c]), []) := by
  unfold plainState
  split
  · subst_vars
    simpa using step_blank_plain hc none []
  · rw [if_neg (by simp)]
    simpa using step_word_plain hc (cur.map (.lit · false)) none []

theorem step_plainState_blank {c : Char} (hc : Lexer.isBlank c = true) (cur : List Char) :
    (plainState cur).step c = (init, if cur = [] then [] else [Token.plain ⟨cur⟩]) := by
  have hc' : c = ' ' ∨ c = '\t' := by simpa [Lexer.isBlank] using hc
  unfold plainState
  split <;> rcases hc' with rfl | rfl <;> rfl

/-- A run of plain characters and blanks, then a blank or a newline, reads as the words
`str.split()` finds in it; `cur` is the part of a word already read. -/
theorem reads_plainBlank {t : Char} (ht : t = ' ' ∨ t = '\n') : ∀ {cs : List Char} (cur : List Char),
    (∀ c ∈ cs, isPlainChar c = true ∨ Lexer.isBlank c = true) →
      Reads (plainState cur) (cs ++ [t]) init ((Python.splitWordsAux cur cs).map Token.plain ++ endTokens t)
  | [], cur, _ => by
    by_cases hcur : cur = []
    · subst hcur
      simpa [Python.splitWordsAux] using reads_init_end ht
    · simpa [Python.splitWordsAux, plainState, hcur, Token.plain, lits] using
        reads_inWord_end ht (cur.map (.lit · false))
  | c :: cs, cur, h => by
    have ih := fun cur => reads_plainBlank ht cur fun c' (hc' : c' ∈ cs) => h c' (.tail _ hc')
    rcases h c (.head _) with hp | hb
    · simpa [Python.splitWordsAux, isSpace_of_isPlainChar hp] using
        Reads.cons (step_plainState_plain hp cur) (ih (cur ++ [c]))
    · have hs : Python.isSpace c = true := by
        rcases (by simpa [Lexer.isBlank] using hb : c = ' ' ∨ c = '\t') with rfl | rfl <;> rfl
      by_cases hcur : cur = [] <;>
        simpa [Python.splitWordsAux, hs, hcur] using Reads.cons (step_plainState_blank hb cur) (ih [])

/-- A double-quoted word of characters that mean themselves between double quotes. -/
theorem reads_dqWord {q : String} (hq : ∀ c ∈ q.data, isDqChar c = true) :
    Reads init ('"' :: q.data ++ ['"']) (inWord (lits q true)) [] :=
  Reads.cons (show init.step '"' = (inDquote [], []) from rfl)
    ((reads_dqChars [] hq).append (show Reads (inDquote (lits q true)) ['"'] (inWord (lits q true)) [] from rfl))

end Posix
end FlagScale
