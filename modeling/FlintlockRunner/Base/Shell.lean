import Mathlib.Data.List.Basic

/-!
# What a POSIX shell reads in a command line

Token recognition and quote removal of the shell command language, over bytes:

- `step` reads one byte. A byte joins the word in progress, quoted or not, ends
  it, or goes to an operator; quotes, backslashes, comments and line
  continuations are as the standard has them. Where an unquoted byte begins an
  expansion (`$`, a backquote, a pattern, a tilde) there is no answer, since what
  the words are then depends on more than the line; nor is there one for NUL.
- `commands` takes the tokens of simple commands joined by `&&`, with a newline
  at the end or without, and answers their words after quote removal. Every other
  operator, a redirection among them, is refused, and so are reserved words and
  assignments in front of a command. Aliases are not considered.

So where `parse` answers, the answer is all that the shell makes of the line.

For lines that a program puts together there is a converse. `Spells` says that
some bytes are read as one word, whatever surrounds them; `Piece` packs bytes
with their word, `Simple` a command, and `parse_line` reads a line of them.
-/

namespace Shell

open List Option

abbrev Bytes := List UInt8

/-- The bytes of a text in ASCII. -/
def ascii (s : String) : Bytes := s.toList.map Char.toUInt8

/-! ## Token recognition -/

/-- What a byte is to the shell where it is not quoted. -/
inductive Kind
  | nul
  | blank
  | newline
  | singleQuote
  | doubleQuote
  | backslash
  | hash
  | operator
  | expansion
  | pattern
  | plain
  deriving DecidableEq, Repr

/-- The bytes that mean something to the shell. -/
def special : List (Kind × Bytes) :=
  [(.nul, [0]), (.blank, ascii " \t"), (.newline, ascii "\n"), (.singleQuote, ascii "'"),
    (.doubleQuote, ascii "\""), (.backslash, ascii "\\"), (.hash, ascii "#"),
    (.operator, ascii "&|;<>()"), (.expansion, ascii "$`"), (.pattern, ascii "*?[~")]

def kind (b : UInt8) : Kind := ((special.find? fun k => b ∈ k.2).map Prod.fst).getD .plain

/-- A word, each byte with whether it was quoted. -/
abbrev Word := List (UInt8 × Bool)

/-- A word, an operator or the end of a line. -/
inductive Token
  | word (w : Word)
  | op (o : Bytes)
  | newline
  deriving DecidableEq, Repr

/-- The token in progress. -/
inductive Cur
  | idle
  | word (w : Word)
  | op (o : Bytes)
  deriving DecidableEq, Repr

namespace Cur

/-- The token that ends when its delimiter is read. -/
def ended : Cur → List Token
  | .idle => []
  | .word w => [.word w]
  | .op o => [.op o]

/-- The token that ends when a word goes on or begins. -/
def before : Cur → List Token
  | .op o => [.op o]
  | _ => []

/-- The word that goes on. -/
def letters : Cur → Word
  | .word w => w
  | _ => []

end Cur

/-- Where the reader is with quoting. -/
inductive Mode
  | unquoted
  | escaped
  | single
  | double
  | doubleEscaped
  | comment
  deriving DecidableEq, Repr

/-- The reader: its mode, the tokens it has, and the word it is in. -/
structure State where
  mode : Mode
  out : List Token
  cur : Cur
  deriving DecidableEq, Repr

namespace State

/-- The word in progress goes on, or begins. -/
def join (s : State) (w : Word) : State :=
  { s with out := s.out ++ s.cur.before, cur := .word (s.cur.letters ++ w) }

/-- The token in progress ends. -/
def close (s : State) : State := { s with out := s.out ++ s.cur.ended, cur := .idle }

end State

/-- The operators of the shell. -/
def operators : List Bytes :=
  ["&&", "||", ";;", "<<-", "<<", ">>", "<&", ">&", "<>", ">|", "&", "|", ";", "<", ">", "(",
    ")"].map ascii

variable (s : State) (b : UInt8)

/-- An operator byte goes on with the operator in progress where that makes a
longer one. -/
def State.operator : State :=
  match s.cur with
  | .op o =>
    if operators.any (o ++ [b]).isPrefixOf then { s with cur := .op (o ++ [b]) }
    else { s.close with cur := .op [b] }
  | _ => { s.close with cur := .op [b] }

/-- Read a byte that no quoting protects. -/
def stepUnquoted : Option State :=
  match kind b with
  | .nul | .expansion | .pattern => none
  | .blank => some s.close
  | .newline => some { s.close with out := s.close.out ++ [.newline] }
  | .singleQuote => some { s.join [] with mode := .single }
  | .doubleQuote => some { s.join [] with mode := .double }
  | .backslash => some { s with mode := .escaped }
  | .hash =>
    match s.cur with
    | .word _ => some (s.join [(b, false)])
    | _ => some { s.close with mode := .comment }
  | .operator => some (s.operator b)
  | .plain => some (s.join [(b, false)])

/-- Read a byte. -/
def step : Option State :=
  match s.mode, kind b with
  | .unquoted, _ => stepUnquoted s b
  | _, .nul => none
  | .single, .singleQuote => some { s with mode := .unquoted }
  | .single, _ => some (s.join [(b, true)])
  | .escaped, .newline => some { s with mode := .unquoted }
  | .escaped, _ => some { s.join [(b, true)] with mode := .unquoted }
  | .double, .doubleQuote => some { s with mode := .unquoted }
  | .double, .backslash => some { s with mode := .doubleEscaped }
  | .double, .expansion => none
  | .double, _ => some (s.join [(b, true)])
  | .doubleEscaped, .newline => some { s with mode := .double }
  | .doubleEscaped, .expansion | .doubleEscaped, .doubleQuote | .doubleEscaped, .backslash =>
    some { s.join [(b, true)] with mode := .double }
  | .doubleEscaped, _ =>
    some { s.join [('\\'.toUInt8, true), (b, true)] with mode := .double }
  | .comment, .newline => stepUnquoted { s with mode := .unquoted } b
  | .comment, _ => some s

def run (line : Bytes) : Option State := line.foldlM step s

/-- The tokens of a line; a quote has to be closed. -/
def tokens (line : Bytes) : Option (List Token) :=
  (run ⟨.unquoted, [], .idle⟩ line).bind fun s =>
    match s.mode with
    | .unquoted | .comment => some s.close.out
    | _ => none

/-! ## Commands -/

variable (w : Word)

/-- Quote removal. -/
def text : Bytes := w.map Prod.fst

/-- No byte of the word is quoted. -/
def bare : Bool := w.all fun m => !m.2

/-- Words that are not commands. -/
def reserved : List Bytes :=
  ["!", "\x7b", "\x7d", "case", "do", "done", "elif", "else", "esac", "fi", "for", "if", "in", "then",
    "until", "while"].map ascii

def nameStart : Bool :=
  (65 ≤ b && b ≤ 90) || (97 ≤ b && b ≤ 122) || b = 95

def nameByte : Bool := nameStart b || (48 ≤ b && b ≤ 57)

/-- A name: letters, digits and underscores, the first not a digit. -/
def isName : Bytes → Bool
  | [] => false
  | b :: bs => nameStart b && bs.all nameByte

/-- A name, unquoted, in front of an unquoted `=`. -/
def isAssignment : Bool :=
  let name := w.takeWhile (· ≠ ('='.toUInt8, false))
  name.length < w.length && bare name && isName (text name)

/-- A word that stands for a command where it comes first. -/
def isCommand : Bool := !(bare w && text w ∈ reserved) && !isAssignment w

/-- The words of a simple command. -/
def simple : List Word → Option (List Bytes)
  | [] => none
  | w :: ws => if isCommand w then some ((w :: ws).map text) else none

/-- Simple commands joined by `&&`, behind the words that were read. -/
def commands : List Word → List Token → Option (List (List Bytes))
  | ws, [] | ws, [.newline] => (simple ws).map ([·])
  | ws, .word w :: ts => commands (ws ++ [w]) ts
  | ws, .op o :: ts =>
    if o = ascii "&&" then (simple ws).bind fun c => (commands [] ts).map (c :: ·) else none
  | _, .newline :: _ :: _ => none

/-- The words of the commands of a line. -/
def parse (line : Bytes) : Option (List (List Bytes)) := (tokens line).bind (commands [])

/-- What `export` takes from a word: the variable and its value. -/
def assigned (w : Bytes) : Bytes × Bytes :=
  (w.takeWhile (· ≠ 61), (w.dropWhile (· ≠ 61)).drop 1)

/-! ## Bytes that are one word -/

theorem mem_special {b : UInt8} (h : kind b ≠ .plain) : ∃ k ∈ special, kind b = k.1 ∧ b ∈ k.2 := by
  unfold kind at h ⊢
  cases hfind : special.find? fun k => b ∈ k.2 with
  | none => exact absurd (congrArg (fun o => (o.map Prod.fst).getD .plain) hfind) h
  | some k =>
    have hb := find?_some hfind
    exact ⟨k, List.mem_of_find?_eq_some hfind, rfl, of_decide_eq_true hb⟩

/-- A byte of a kind that has only one is that one. -/
theorem eq_of_kind {k : Kind} {b c : UInt8} (hplain : k ≠ .plain)
    (honly : ∀ x ∈ special, x.1 = k → x.2 = [c]) (h : kind b = k) : b = c := by
  obtain ⟨x, hx, hkind, hb⟩ := mem_special (h ▸ hplain)
  exact mem_singleton.mp (honly x hx (hkind.symm.trans h) ▸ hb)

variable {s t : State} {l l' : Bytes} {w w' : Word}

theorem run_append : run s (l ++ l') = (run s l).bind fun t => run t l' := foldlM_append

@[simp] theorem run_nil : run s [] = some s := rfl

theorem run_cons : run s (b :: l) = (step s b).bind fun t => run t l := rfl

@[simp] theorem join_join : (s.join w).join w' = s.join (w ++ w') := by
  simp [State.join, Cur.before, Cur.letters]

/-- Where nothing is quoted the bytes are read as part of a word. -/
def Spells (l : Bytes) (w : Word) : Prop :=
  ∀ s : State, s.mode = .unquoted → run s l = some (s.join w)

theorem Spells.append (h : Spells l w) (h' : Spells l' w') : Spells (l ++ l') (w ++ w') := by
  intro s hs
  rw [run_append, h s hs, bind_some, h' (s.join w) hs, join_join]

/-- Bytes that mean nothing to the shell, marked as unquoted. -/
def unquoted (l : Bytes) : Word := l.map (·, false)

theorem spells_plain (hl : l ≠ []) (h : ∀ b ∈ l, kind b = .plain) : Spells l (unquoted l) := by
  induction l with
  | nil => exact absurd rfl hl
  | cons b l ih =>
    have hone : Spells [b] (unquoted [b]) := by
      intro s hs
      simp [run_cons, step, hs, stepUnquoted, h b mem_cons_self, unquoted]
    rcases eq_or_ne l [] with rfl | hne
    · exact hone
    · exact hone.append (ih hne fun c hc => h c (mem_cons_of_mem b hc))

theorem kind_of_nameByte {b : UInt8} (h : nameByte b = true) : kind b = .plain := by
  by_contra hne
  obtain ⟨k, hk, -, hb⟩ := mem_special hne
  have htable : (special.all fun k => k.2.all fun b => !nameByte b) = true := by decide
  have hnot := all_eq_true.mp (all_eq_true.mp htable k hk) b hb
  simp [h] at hnot

theorem nameByte_of_isName (h : isName l = true) : l ≠ [] ∧ ∀ b ∈ l, nameByte b = true := by
  cases l with
  | nil => exact absurd h Bool.false_ne_true
  | cons b l =>
    obtain ⟨hstart, hrest⟩ := Bool.and_eq_true_iff.mp h
    refine ⟨cons_ne_nil b l, forall_mem_cons.mpr ⟨?_, all_eq_true.mp hrest⟩⟩
    rw [nameByte, hstart, Bool.true_or]

theorem assigned_append (h : ∀ b ∈ l, nameByte b = true) (value : Bytes) :
    assigned (l ++ 61 :: value) = (l, value) := by
  have hne : ∀ b ∈ l, decide (b ≠ 61) = true := fun b hb =>
    decide_eq_true fun heq => absurd (h b hb) (heq ▸ by decide)
  rw [assigned, takeWhile_append_of_pos hne, dropWhile_append_of_pos hne]
  simp

/-! ### Single quotes -/

/-- What a byte becomes within single quotes: a single quote goes outside of them
and behind a backslash. -/
def escape : Bytes := if b ∈ ascii "'" then ascii "'\\''" else [b]

/-- Single quotes around bytes. -/
def quote (l : Bytes) : Bytes := ascii "'" ++ l.flatMap escape ++ ascii "'"

/-- The same bytes, marked as quoted. -/
def quoted (l : Bytes) : Word := l.map (·, true)

theorem run_escape {b : UInt8} (hs : s.mode = .single) (hb : b ≠ 0) :
    run s (escape b) = some (s.join [(b, true)]) := by
  unfold escape
  split
  · rename_i hquote
    -- The quotes close, a backslash and the quote follow, and they open again.
    obtain ⟨mode, out, cur⟩ := s
    cases hs
    have hb : b = 39 := mem_singleton.mp hquote
    have hread : run ⟨.single, out, cur⟩ (ascii "'\\''") =
        some ((State.join ⟨.single, out, cur⟩ [(39, true)]).join []) := rfl
    rw [hread, join_join, append_nil, hb]
  · rename_i hquote
    have hnul : kind b ≠ .nul := mt (eq_of_kind (by decide) (by decide)) hb
    have hsingle : kind b ≠ .singleQuote := fun hk =>
      hquote (mem_singleton.mpr (eq_of_kind (by decide) (by decide) hk))
    rw [run_cons, step, hs]
    cases hk : kind b with
    | nul => exact absurd hk hnul
    | singleQuote => exact absurd hk hsingle
    | _ => rfl

theorem run_escapes (hs : s.mode = .single) (hnul : 0 ∉ l) :
    run (s.join w) (l.flatMap escape) = some (s.join (w ++ quoted l)) := by
  induction l generalizing w with
  | nil => simp [quoted]
  | cons b l ih =>
    rw [mem_cons, not_or] at hnul
    have hbyte := @run_escape (s.join w) b hs (Ne.symm hnul.1)
    rw [flatMap_cons, run_append, hbyte, bind_some, join_join, ih hnul.2]
    simp [quoted]

/-- A quoted string is one word, the string itself. -/
theorem spells_quote (hnul : 0 ∉ l) : Spells (quote l) (quoted l) := by
  intro s hs
  obtain ⟨mode, out, cur⟩ := s
  cases hs
  have hopen : run ⟨.unquoted, out, cur⟩ (ascii "'") = some (State.join ⟨.single, out, cur⟩ []) := rfl
  have hclose : run (State.join ⟨.single, out, cur⟩ (quoted l)) (ascii "'") =
      some (State.join ⟨.unquoted, out, cur⟩ (quoted l)) := rfl
  rw [quote, run_append, run_append, hopen, bind_some, run_escapes rfl hnul,
    bind_some, nil_append, hclose]

/-! ## Lines of simple commands -/

/-- Bytes with the word that they are. -/
structure Piece where
  bytes : Bytes
  word : Word
  spells : Spells bytes word

/-- A simple command: words with a blank between them, the first of which is a
command. -/
structure Simple where
  head : Piece
  args : List Piece
  command : isCommand head.word = true

namespace Simple

def bytes (c : Simple) : Bytes :=
  c.head.bytes ++ c.args.flatMap fun p => ascii " " ++ p.bytes

/-- The words that the shell runs. -/
def words (c : Simple) : List Bytes := (c.head :: c.args).map fun p => text p.word

def tokens (c : Simple) : List Token := (c.head :: c.args).map fun p => .word p.word

end Simple

variable (c : Simple) (cs : List Simple)

/-- Simple commands joined by `&&`. -/
def line : Bytes :=
  c.bytes ++ cs.flatMap fun d => ascii " && " ++ d.bytes

/-- Some tokens have been read, the last of them a word that may go on. -/
structure AtWord (s : State) (ts : List Token) : Prop where
  mode : s.mode = .unquoted
  cur : ∃ w, s.cur = .word w
  out : s.out ++ s.cur.ended = ts

/-- Some tokens have been read and a word may begin. -/
structure Ready (s : State) (ts : List Token) : Prop where
  mode : s.mode = .unquoted
  cur : s.cur.letters = [] ∧ s.cur.before = s.cur.ended
  out : s.out ++ s.cur.ended = ts

variable {ts : List Token}

theorem Ready.word (h : Ready s ts) (hl : Spells l w) :
    ∃ t, run s l = some t ∧ AtWord t (ts ++ [.word w]) := by
  refine ⟨_, hl s h.mode, h.mode, ⟨_, rfl⟩, ?_⟩
  simp only [State.join, h.cur.1, h.cur.2, nil_append, h.out]
  rfl

theorem AtWord.blank (h : AtWord s ts) : ∃ t, run s (ascii " ") = some t ∧ Ready t ts := by
  obtain ⟨mode, out, cur⟩ := s
  obtain ⟨rfl, ⟨w, rfl⟩, rfl⟩ := h
  exact ⟨⟨.unquoted, out ++ [.word w], .idle⟩, rfl, rfl, ⟨rfl, rfl⟩, append_nil _⟩

theorem AtWord.and (h : AtWord s ts) :
    ∃ t, run s (ascii " && ") = some t ∧ Ready t (ts ++ [.op (ascii "&&")]) := by
  obtain ⟨mode, out, cur⟩ := s
  obtain ⟨rfl, ⟨w, rfl⟩, rfl⟩ := h
  exact ⟨⟨.unquoted, out ++ [.word w] ++ [] ++ [.op (ascii "&&")], .idle⟩, rfl, rfl, ⟨rfl, rfl⟩,
    by simp [Cur.ended]⟩

theorem AtWord.args (h : AtWord s ts) (args : List Piece) :
    ∃ t, run s (args.flatMap fun p => ascii " " ++ p.bytes) = some t ∧
      AtWord t (ts ++ args.map fun p => .word p.word) := by
  induction args generalizing s ts with
  | nil => exact ⟨s, rfl, by simpa using h⟩
  | cons p args ih =>
    obtain ⟨s₁, hblank, hready⟩ := h.blank
    obtain ⟨s₂, hword, hat⟩ := hready.word p.spells
    obtain ⟨t, hrun, ht⟩ := ih hat
    refine ⟨t, ?_, by simpa using ht⟩
    rw [flatMap_cons, run_append, run_append, hblank, bind_some, hword,
      bind_some, hrun]

theorem Ready.simple (h : Ready s ts) (c : Simple) :
    ∃ t, run s c.bytes = some t ∧ AtWord t (ts ++ c.tokens) := by
  obtain ⟨s₁, hword, hat⟩ := h.word c.head.spells
  obtain ⟨t, hrun, ht⟩ := hat.args c.args
  refine ⟨t, ?_, by simpa [Simple.tokens] using ht⟩
  rw [Simple.bytes, run_append, hword, bind_some, hrun]

/-- The tokens of a line. -/
def lineTokens : List Token :=
  c.tokens ++ cs.flatMap fun d => .op (ascii "&&") :: d.tokens

theorem run_line :
    ∃ t, run ⟨.unquoted, [], .idle⟩ (line c cs) = some t ∧ AtWord t (lineTokens c cs) := by
  have hmore : ∀ {s : State} {ts : List Token}, AtWord s ts →
      ∃ t, run s (cs.flatMap fun d => ascii " && " ++ d.bytes) = some t ∧
        AtWord t (ts ++ cs.flatMap fun d => .op (ascii "&&") :: d.tokens) := by
    induction cs with
    | nil => exact fun {s ts} h => ⟨s, rfl, by simpa using h⟩
    | cons d cs ih =>
      intro s ts h
      obtain ⟨s₁, hand, hready⟩ := h.and
      obtain ⟨s₂, hsimple, hat⟩ := hready.simple d
      obtain ⟨t, hrun, ht⟩ := ih hat
      refine ⟨t, ?_, by simpa using ht⟩
      rw [flatMap_cons, run_append, run_append, hand, bind_some, hsimple,
        bind_some, hrun]
  have hstart : Ready ⟨.unquoted, [], .idle⟩ [] := ⟨rfl, ⟨rfl, rfl⟩, rfl⟩
  obtain ⟨s₁, hsimple, hat⟩ := hstart.simple c
  obtain ⟨t, hrun, ht⟩ := hmore hat
  refine ⟨t, ?_, ht⟩
  rw [line, run_append, hsimple, bind_some, hrun]

/-! ### The commands of a line -/

theorem commands_words (ws ws' : List Word) (ts : List Token) :
    commands ws (ws'.map .word ++ ts) = commands (ws ++ ws') ts := by
  induction ws' generalizing ws with
  | nil => simp
  | cons w ws' ih =>
    rw [map_cons, cons_append, commands, ih, append_assoc, singleton_append]

theorem simple_words :
    Shell.simple ((c.head :: c.args).map Piece.word) = some c.words := by
  simp [Shell.simple, c.command, Simple.words, Function.comp_def]

theorem commands_simple (ts : List Token) :
    commands [] (c.tokens ++ ts) = commands ((c.head :: c.args).map Piece.word) ts := by
  have htokens : c.tokens = ((c.head :: c.args).map Piece.word).map .word := by
    simp [Simple.tokens, Function.comp_def]
  rw [htokens, commands_words, nil_append]

/-- What ends a line: nothing, or a newline. -/
inductive Ends : List Token → Prop
  | nothing : Ends []
  | newline : Ends [.newline]

theorem commands_end {ts : List Token} (h : Ends ts) (c : Simple) :
    commands ((c.head :: c.args).map Piece.word) ts = some [c.words] := by
  cases h with
  | nothing => rw [commands, simple_words]; rfl
  | newline => rw [commands, simple_words]; rfl

theorem commands_line {ts : List Token} (h : Ends ts) (c : Simple) (cs : List Simple) :
    commands [] (lineTokens c cs ++ ts) = some ((c :: cs).map Simple.words) := by
  induction cs generalizing c with
  | nil =>
    rw [lineTokens, flatMap_nil, append_nil, commands_simple, commands_end h]
    rfl
  | cons d cs ih =>
    have hsplit : lineTokens c (d :: cs) ++ ts =
        c.tokens ++ .op (ascii "&&") :: (lineTokens d cs ++ ts) := by
      simp [lineTokens]
    rw [hsplit, commands_simple, commands, if_pos rfl, simple_words, bind_some, ih]
    rfl

/-- **A line of simple commands is read as these commands**, whether a newline
ends it or not. -/
theorem parse_line :
    parse (line c cs) = some ((c :: cs).map Simple.words) ∧
      parse (line c cs ++ ascii "\n") = some ((c :: cs).map Simple.words) := by
  obtain ⟨⟨mode, out, cur⟩, hrun, hmode, ⟨w, hcur⟩, hout⟩ := run_line c cs
  cases hmode
  cases hcur
  constructor
  · have htokens : Shell.tokens (line c cs) = some (lineTokens c cs) := by
      rw [Shell.tokens, hrun]
      exact congrArg some hout
    rw [parse, htokens, bind_some, ← append_nil (lineTokens c cs),
      commands_line .nothing]
  · have htokens : Shell.tokens (line c cs ++ ascii "\n") = some (lineTokens c cs ++ [.newline]) := by
      rw [Shell.tokens, run_append, hrun, ← hout]
      exact congrArg some (append_nil _)
    rw [parse, htokens, bind_some, commands_line .newline]

/-- The same for a line in which every command but the last has `&&` behind it. -/
theorem parse_chain (d : Simple) :
    parse (cs.flatMap (fun c => c.bytes ++ ascii " && ") ++ d.bytes) =
      some ((cs ++ [d]).map Simple.words) := by
  have hline : ∃ c cs', cs ++ [d] = c :: cs' ∧
      cs.flatMap (fun c => c.bytes ++ ascii " && ") ++ d.bytes = line c cs' := by
    induction cs with
    | nil => exact ⟨d, [], rfl, by simp [line]⟩
    | cons c cs ih =>
      obtain ⟨c', cs', hlist, hbytes⟩ := ih
      refine ⟨c, c' :: cs', congrArg (c :: ·) hlist, ?_⟩
      rw [flatMap_cons, append_assoc, hbytes]
      simp [line]
  obtain ⟨c, cs', hlist, hbytes⟩ := hline
  rw [hbytes, hlist, (parse_line c cs').1]

end Shell
