import Mathlib.Data.List.Basic

/-!
# The words of a shell command

The token recognition of a POSIX shell, one character at a time, so that what has been read of a
text does not depend on how the text goes on.

* `Reader`, `Reader.step`, `read` — the reader, between words, within quotes or within an operator;
* `tokens` — what a whole text reads as. A text whose quotes stay open reads as nothing; so does one
  with a substitution (`$(`, `$` before a brace, a backquote), since those have rules of their own;
* `tokens_append` — **texts in a row**: a first part after which the reader stands between words
  leaves the second as it is;
* `singleQuoted`, `tokens_singleQuoted` — **a quoted text is one word**, under every spelling of the
  apostrophe that puts it into the word.
-/

namespace ShellWords

def apostrophe : Char := Char.ofNat 39

def quotation : Char := Char.ofNat 34

def backquote : Char := Char.ofNat 96

/-- A character of a word, and how it stands there: as it is, within quotes, or as the beginning of
an expansion. -/
inductive Piece where
  | plain (c : Char)
  | quoted (c : Char)
  | active (c : Char)
deriving DecidableEq, Repr

namespace Piece

def char : Piece → Char
  | plain c | quoted c | active c => c

end Piece

abbrev Word := List Piece

/-- The characters of a word, its quotes taken off. -/
def Word.text (word : Word) : String := String.ofList (word.map Piece.char)

/-- The word that a quoted text is. -/
def quotedWord (text : String) : Word := text.toList.map .quoted

/-- The word that a text of plain characters is. -/
def plainWord (text : String) : Word := text.toList.map .plain

@[simp] theorem text_quotedWord (text : String) : (quotedWord text).text = text := by
  simp [quotedWord, Word.text, Function.comp_def, Piece.char]

@[simp] theorem text_plainWord (text : String) : (plainWord text).text = text := by
  simp [plainWord, Word.text, Function.comp_def, Piece.char]

/-- What a text is taken apart into. The digits right before a redirection are no word. -/
inductive Token where
  | word (word : Word)
  | ioNumber (digits : Word)
  | operator (text : List Char)
  | newline
deriving DecidableEq, Repr

/-! ### The reader -/

/-- Where the reader stands. Behind a backslash it waits for the character that is escaped;
`refused` is for texts that it does not read. -/
inductive Mode where
  | plain
  | escaped
  | single
  | double
  | doubleEscaped
  | comment
  | operator (text : List Char)
  | operatorEscaped (text : List Char)
  | refused
deriving DecidableEq, Repr

/-- What has been read: the tokens, and the word that is not over yet. -/
structure Reader where
  mode : Mode := .plain
  word : Option Word := none
  tokens : List Token := []
deriving DecidableEq, Repr

/-- The operators of the shell. An operator is as long as it can be. -/
def operators : List (List Char) :=
  [['&', '&'], ['|', '|'], [';', ';'], ['<', '<'], ['>', '>'], ['<', '&'], ['>', '&'], ['<', '>'],
    ['<', '<', '-'], ['>', '|'], ['&'], ['|'], [';'], ['<'], ['>'], ['('], [')']]

namespace Reader

/-- One more character of the word. -/
def push (r : Reader) (piece : Piece) : Reader :=
  { r with word := some (r.word.getD [] ++ [piece]) }

def emit (r : Reader) (token : Token) : Reader := { r with tokens := r.tokens ++ [token] }

/-- The word is over. -/
def endWord (r : Reader) : Reader :=
  match r.word with
  | none => r
  | some word => { r with word := none, tokens := r.tokens ++ [.word word] }

/-- Whether the word is a number that is written without quotes. -/
def isNumber (word : Word) : Bool :=
  word ≠ [] && word.all fun piece =>
    match piece with
    | .plain c => c.isDigit
    | _ => false

/-- The word is over, since an operator begins. -/
def endWordBefore (r : Reader) (c : Char) : Reader :=
  match r.word with
  | none => r
  | some word =>
    if (c = '<' ∨ c = '>') ∧ isNumber word then
      { r with word := none, tokens := r.tokens ++ [.ioNumber word] }
    else r.endWord

/-- Whether the last character was a `$` that begins an expansion. -/
def behindDollar (r : Reader) : Bool := (r.word.getD []).getLast? = some (.active '$')

/-- A character outside quotes. -/
def readPlain (r : Reader) (c : Char) : Reader :=
  if c = apostrophe then { r with mode := .single, word := some (r.word.getD []) }
  else if c = quotation then { r with mode := .double, word := some (r.word.getD []) }
  else if c = '\\' then { r with mode := .escaped }
  else if c = backquote then { r with mode := .refused }
  else if (c = '(' ∨ c = Char.ofNat 123) ∧ r.behindDollar then { r with mode := .refused }
  else if c = '$' then r.push (.active c)
  else if c = ' ' ∨ c = '\t' then r.endWord
  else if c = '\n' then r.endWord.emit .newline
  else if [c] ∈ operators then { r.endWordBefore c with mode := .operator [c] }
  else if c = '#' ∧ r.word = none then { r with mode := .comment }
  else r.push (.plain c)

/-- A character within quotation marks. -/
def readDouble (r : Reader) (c : Char) : Reader :=
  if c = quotation then { r with mode := .plain }
  else if c = '\\' then { r with mode := .doubleEscaped }
  else if c = backquote then { r with mode := .refused }
  else if (c = '(' ∨ c = Char.ofNat 123) ∧ r.behindDollar then { r with mode := .refused }
  else if c = '$' then r.push (.active c)
  else r.push (.quoted c)

/-- The operator is over. -/
def endOperator (r : Reader) (text : List Char) : Reader :=
  { r with mode := .plain, tokens := r.tokens ++ [.operator text] }

/-- **The next character.** A backslash before the end of a line joins the lines, also within an
operator. -/
def step (r : Reader) (c : Char) : Reader :=
  match r.mode with
  | .plain => r.readPlain c
  | .escaped =>
    if c = '\n' then { r with mode := .plain } else ({ r with mode := .plain }).push (.quoted c)
  | .single => if c = apostrophe then { r with mode := .plain } else r.push (.quoted c)
  | .double => r.readDouble c
  | .doubleEscaped =>
    if c = '\n' then { r with mode := .double }
    else if c = '$' ∨ c = backquote ∨ c = quotation ∨ c = '\\' then
      ({ r with mode := .double }).push (.quoted c)
    else (({ r with mode := .double }).push (.quoted '\\')).push (.quoted c)
  | .comment => if c = '\n' then ({ r with mode := .plain }).emit .newline else r
  | .operator text =>
    if text ++ [c] ∈ operators then { r with mode := .operator (text ++ [c]) }
    else if c = '\\' then { r with mode := .operatorEscaped text }
    else (r.endOperator text).readPlain c
  | .operatorEscaped text =>
    if c = '\n' then { r with mode := .operator text }
    else (r.endOperator text).push (.quoted c)
  | .refused => r

/-- What has been read when the text is over. A backslash at the very end stands for itself. -/
def finish (r : Reader) : Option (List Token) :=
  match r.mode with
  | .plain | .comment => some r.endWord.tokens
  | .escaped => some (r.push (.quoted '\\')).endWord.tokens
  | .operator text => some (r.endOperator text).tokens
  | .operatorEscaped text => some ((r.endOperator text).push (.quoted '\\')).endWord.tokens
  | .single | .double | .doubleEscaped | .refused => none

end Reader

/-- The reader after some more characters. -/
def read (r : Reader) (cs : List Char) : Reader := cs.foldl Reader.step r

/-- **The tokens of a text.** -/
def tokens (text : String) : Option (List Token) := (read {} text.toList).finish

@[simp] theorem read_nil (r : Reader) : read r [] = r := rfl

@[simp] theorem read_cons (r : Reader) (c : Char) (cs : List Char) :
    read r (c :: cs) = read (r.step c) cs := rfl

theorem read_append (r : Reader) (cs ds : List Char) : read r (cs ++ ds) = read (read r cs) ds :=
  List.foldl_append

/-! ### Texts in a row -/

/-- The reader with tokens before those that it has read. -/
def Reader.behind (r : Reader) (before : List Token) : Reader :=
  { r with tokens := before ++ r.tokens }

section Behind

variable (r : Reader) (before : List Token)

@[simp] theorem behind_mode : (r.behind before).mode = r.mode := rfl

@[simp] theorem behind_word : (r.behind before).word = r.word := rfl

@[simp] theorem behind_tokens : (r.behind before).tokens = before ++ r.tokens := rfl

theorem behind_ite (p : Prop) [Decidable p] (a b : Reader) :
    (if p then a else b).behind before = if p then a.behind before else b.behind before :=
  apply_ite (Reader.behind · before) p a b

theorem behind_push (piece : Piece) :
    (r.behind before).push piece = (r.push piece).behind before := rfl

theorem behind_emit (token : Token) :
    (r.behind before).emit token = (r.emit token).behind before := by
  simp [Reader.behind, Reader.emit, List.append_assoc]

theorem behind_endOperator (text : List Char) :
    (r.behind before).endOperator text = (r.endOperator text).behind before := by
  simp [Reader.behind, Reader.endOperator, List.append_assoc]

theorem behind_endWord : (r.behind before).endWord = r.endWord.behind before := by
  obtain ⟨mode, word, tokens⟩ := r
  cases word with
  | none => rfl
  | some => simp [Reader.behind, Reader.endWord, List.append_assoc]

theorem behind_endWordBefore (c : Char) :
    (r.behind before).endWordBefore c = (r.endWordBefore c).behind before := by
  obtain ⟨mode, word, tokens⟩ := r
  cases word with
  | none => rfl
  | some word =>
    have hend := behind_endWord ⟨mode, some word, tokens⟩ before
    unfold Reader.endWordBefore
    rw [behind_word]
    dsimp only
    rw [behind_ite, hend]
    refine if_congr Iff.rfl ?_ rfl
    simp [Reader.behind, List.append_assoc]

theorem behind_readPlain (c : Char) :
    (r.behind before).readPlain c = (r.readPlain c).behind before := by
  unfold Reader.readPlain
  simp only [behind_ite]
  rw [behind_endWord, behind_emit, behind_endWordBefore]
  rfl

theorem behind_readDouble (c : Char) :
    (r.behind before).readDouble c = (r.readDouble c).behind before := by
  unfold Reader.readDouble
  simp only [behind_ite]
  rfl

theorem behind_step (c : Char) : (r.behind before).step c = (r.step c).behind before := by
  unfold Reader.step
  rw [behind_mode]
  cases r.mode with
  | plain => exact behind_readPlain r before c
  | double => exact behind_readDouble r before c
  | escaped | single | doubleEscaped =>
    simp only [behind_ite]
    rfl
  | comment =>
    dsimp only
    rw [behind_ite]
    refine if_congr Iff.rfl ?_ rfl
    exact behind_emit { r with mode := .plain } before .newline
  | operator =>
    dsimp only
    rw [behind_ite, behind_ite, behind_endOperator, behind_readPlain]
    rfl
  | operatorEscaped =>
    dsimp only
    rw [behind_ite, behind_endOperator, behind_push]
    rfl
  | refused => rfl

theorem behind_read (cs : List Char) : read (r.behind before) cs = (read r cs).behind before := by
  induction cs generalizing r with
  | nil => rfl
  | cons c cs ih => rw [read_cons, read_cons, behind_step, ih]

theorem behind_finish : (r.behind before).finish = r.finish.map (before ++ ·) := by
  unfold Reader.finish
  rw [behind_mode]
  cases r.mode with
  | plain | comment => simp only [behind_endWord, behind_tokens, Option.map_some]
  | escaped => simp only [behind_push, behind_endWord, behind_tokens, Option.map_some]
  | operator => simp only [behind_endOperator, behind_tokens, Option.map_some]
  | operatorEscaped =>
    simp only [behind_endOperator, behind_push, behind_endWord, behind_tokens, Option.map_some]
  | single | double | doubleEscaped | refused => rfl

end Behind

/-- The first part of a text ends between two words: the tokens of the part are complete. -/
def Opens (first : String) (before : List Token) : Prop :=
  read {} first.toList = { tokens := before }

/-- **Texts in a row.** What follows is read as it would be read alone. -/
theorem tokens_append {first : String} {before : List Token} (h : Opens first before)
    (text : String) : tokens (first ++ text) = (tokens text).map (before ++ ·) := by
  have hbehind : ({ tokens := before } : Reader) = Reader.behind {} before := by
    simp [Reader.behind]
  unfold tokens
  rw [String.toList_append, read_append, h, hbehind, behind_read, behind_finish]

theorem Opens.append {first second : String} {before after : List Token} (h : Opens first before)
    (h' : Opens second after) : Opens (first ++ second) (before ++ after) := by
  have hbehind : ({ tokens := before } : Reader) = Reader.behind {} before := by
    simp [Reader.behind]
  unfold Opens
  rw [String.toList_append, read_append, h, hbehind, behind_read, h']
  rfl

/-! ### Quoted texts -/

/-- A text in apostrophes, with every apostrophe in it written as `escape`. -/
def singleQuoted (escape text : List Char) : List Char :=
  apostrophe :: text.flatMap (fun c => if c = apostrophe then escape else [c]) ++ [apostrophe]

/-- A spelling that, between apostrophes, puts an apostrophe into the word. -/
def SpellsApostrophe (escape : List Char) : Prop :=
  ∀ (word : Word) (before : List Token),
    read { mode := .single, word := some word, tokens := before } escape =
      { mode := .single, word := some (word ++ [.quoted apostrophe]), tokens := before }

section Quoted

variable {escape : List Char} (hescape : SpellsApostrophe escape)

include hescape

/-- Between the apostrophes every character of the text comes into the word, quoted. -/
theorem read_quotedBody (text : List Char) (word : Word) (before : List Token) :
    read { mode := .single, word := some word, tokens := before }
        (text.flatMap fun c => if c = apostrophe then escape else [c]) =
      { mode := .single, word := some (word ++ text.map .quoted), tokens := before } := by
  induction text generalizing word with
  | nil => simp
  | cons c text ih =>
    have hchar : read { mode := .single, word := some word, tokens := before }
        (if c = apostrophe then escape else [c]) =
          { mode := .single, word := some (word ++ [.quoted c]), tokens := before } := by
      by_cases hc : c = apostrophe
      · rw [if_pos hc, hc]
        exact hescape word before
      · rw [if_neg hc]
        simp [Reader.step, hc, Reader.push]
    rw [List.flatMap_cons, read_append, hchar, ih, List.map_cons, List.append_assoc,
      List.singleton_append]

/-- **A quoted text goes on with the word**, and leaves nothing open. -/
theorem read_singleQuoted (text : List Char) (word : Option Word) (before : List Token) :
    read { word := word, tokens := before } (singleQuoted escape text) =
      { word := some (word.getD [] ++ text.map .quoted), tokens := before } := by
  have hopen : Reader.step { word := word, tokens := before } apostrophe =
      { mode := .single, word := some (word.getD []), tokens := before } := by
    simp [Reader.step, Reader.readPlain]
  unfold singleQuoted
  rw [List.cons_append, read_cons, hopen, read_append, read_quotedBody hescape, read_cons, read_nil]
  simp [Reader.step]

/-- **A quoted text is one word**, its characters all quoted. -/
theorem tokens_singleQuoted (text : List Char) :
    tokens (String.ofList (singleQuoted escape text)) = some [.word (text.map .quoted)] := by
  unfold tokens
  rw [String.toList_ofList, read_singleQuoted hescape]
  rfl

end Quoted

end ShellWords
