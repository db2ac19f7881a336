import LibCheck.Regex

/-!
# LibCheck.CLines

The line numbers that a C compiler gives to the lines of a text, over any text.

Lines that end in a backslash are spliced with the next one.  A `#line` directive
with a number in it, and perhaps a file name, says what the number of the next
line is; each other line adds one.  A directive of another form, as an incomplete
file name makes one, leaves the numbers unknown (`none`).
-/

namespace LibCheck.CLines

open Regex (lang seqs plus opt)

/-- White space within a line. -/
def isBlank (c : Char) : Bool :=
  c == ' ' || c == '\t' || c == '\x0c' || c == '\x0b' || c == '\r'

/-- The characters of a directive's name. -/
def isWordChar (c : Char) : Bool := c.isAlphanum || c == '_'

/-- The text after the `#` of a directive, from its name on. -/
def directive? (t : List Char) : Option (List Char) :=
  match t.dropWhile isBlank with
  | '#' :: r => some (r.dropWhile isBlank)
  | _ => none

/-- Is the line a `#line` directive? -/
def isLineDirective (t : List Char) : Bool :=
  match directive? t with
  | some r => r.takeWhile isWordChar == ['l', 'i', 'n', 'e']
  | none => false

/-- The characters of a string literal, between its quotes. -/
def stringChars : Regex Char :=
  .star (.alt (.cls fun c => c != '"' && c != '\\') (.seq (.cls (· == '\\')) (.cls fun _ => true)))

/-- What may follow the name of the directive: a number, and a file name as a
string literal. -/
def lineArgs : Regex Char :=
  seqs [plus (.cls isBlank), plus (.cls Char.isDigit), .star (.cls isBlank),
    opt (seqs [.cls (· == '"'), stringChars, .cls (· == '"'), .star (.cls isBlank)])]

/-- The number that a `#line` directive gives to the next line. -/
def lineNumber (t : List Char) : Option Nat :=
  match directive? t with
  | some r =>
      let args := r.dropWhile isWordChar
      let n := Nat.ofDigitChars 10 ((args.dropWhile isBlank).takeWhile Char.isDigit) 0
      if lineArgs.accepts args ∧ n ≠ 0 then some n else none
  | none => none

/-- What is known after some lines: the number of the next one, and the text of
the lines before it that are to be spliced with it. -/
structure Reader where
  next : Option Nat
  pending : List Char
deriving DecidableEq

/-- Where a text begins. -/
def Reader.start : Reader := ⟨some 1, []⟩

/-- One more line. -/
def Reader.line (r : Reader) (t : List Char) : Reader :=
  if t.getLast? = some '\\' then ⟨r.next.map (· + 1), r.pending ++ t.dropLast⟩
  else if isLineDirective (r.pending ++ t) then ⟨lineNumber (r.pending ++ t), []⟩
  else ⟨r.next.map (· + 1), []⟩

/-- A text that is printed with a newline after it. -/
def Reader.text (r : Reader) (t : List Char) : Reader := (t.splitOn '\n').foldl Reader.line r

/-! ## lines -/

namespace Reader

theorem eq_of_pending {r : Reader} (h : r.pending = []) : r = ⟨r.next, []⟩ := by
  rw [← h]

/-- A line that is neither a `#line` directive nor to be spliced. -/
theorem line_of_plain {t : List Char} (n : Option Nat) (hlast : t.getLast? ≠ some '\\')
    (hdir : isLineDirective t = false) : line ⟨n, []⟩ t = ⟨n.map (· + 1), []⟩ := by
  simp [line, hlast, hdir]

/-- A line that is a `#line` directive. -/
theorem line_of_directive {t : List Char} (n : Option Nat) (hlast : t.getLast? ≠ some '\\')
    (hdir : isLineDirective t = true) : line ⟨n, []⟩ t = ⟨lineNumber t, []⟩ := by
  simp [line, hlast, hdir]

theorem text_of_line {t : List Char} (r : Reader) (h : '\n' ∉ t) : text r t = line r t := by
  rw [text, List.splitOn_eq_singleton h]
  rfl

/-- The first line of a text. -/
theorem text_append_newline {t : List Char} (r : Reader) (h : '\n' ∉ t) (u : List Char) :
    text r (t ++ '\n' :: u) = text (line r t) u := by
  rw [text, List.splitOn_append_cons_self, List.splitOn_eq_singleton h]
  rfl

/-- A text is one line, or a line and a shorter text. -/
theorem text_cases (t : List Char) :
    '\n' ∉ t ∨ ∃ l u, t = l ++ '\n' :: u ∧ '\n' ∉ l := by
  by_cases h : '\n' ∈ t
  · obtain ⟨l, u, rfl, hl⟩ := List.eq_append_cons_of_mem h
    exact .inr ⟨l, u, rfl, hl⟩
  · exact .inl h

/-- Nothing is to be spliced after a text that does not end in a backslash. -/
theorem text_pending {t : List Char} (r : Reader) (hlast : t.getLast? ≠ some '\\') :
    (text r t).pending = [] := by
  induction hn : t.length using Nat.strongRecOn generalizing t r with
  | _ n ih =>
      rcases text_cases t with h | ⟨l, u, rfl, hl⟩
      · rw [text_of_line r h, line, if_neg hlast]
        split <;> rfl
      · rw [text_append_newline r hl]
        have hu : u.getLast? ≠ some '\\' := by
          cases u with
          | nil => simp
          | cons c u => simpa [List.getLast?_append] using hlast
        have hlen : u.length < n := by
          rw [← hn]
          simp
          omega
        exact ih u.length hlen _ hu rfl

/-- What stands before the first newline may as well be pending. -/
theorem text_append_pending {q : List Char} (n : Option Nat) (u : List Char) (hq : '\n' ∉ q)
    (hlast : q.getLast? ≠ some '\\') : text ⟨n, []⟩ (q ++ u) = text ⟨n, q⟩ u := by
  have hline : ∀ l : List Char, line ⟨n, []⟩ (q ++ l) = line ⟨n, q⟩ l := by
    intro l
    rcases List.eq_nil_or_concat l with rfl | ⟨l, c, rfl⟩
    · simp [line, hlast]
    · simp [line, ← List.append_assoc]
  rcases text_cases u with h | ⟨l, v, rfl, hl⟩
  · rw [text_of_line _ h, text_of_line _ (by simp [hq, h]), hline]
  · rw [text_append_newline _ hl, ← List.append_assoc, text_append_newline _
      (by simp [hq, hl]), hline]

/-- A `#line` directive makes the number before it irrelevant. -/
theorem text_pending_directive {q u : List Char} (hdir : ∀ x, isLineDirective (q ++ x) = true)
    (hlast : u.getLast? ≠ some '\\') (n m : Option Nat) : text ⟨n, q⟩ u = text ⟨m, q⟩ u := by
  induction hk : u.length using Nat.strongRecOn generalizing u q n m with
  | _ k ih =>
      rcases text_cases u with h | ⟨l, v, rfl, hl⟩
      · rw [text_of_line _ h, text_of_line _ h]
        simp [line, hlast, hdir]
      · rw [text_append_newline _ hl, text_append_newline _ hl]
        by_cases hspliced : l.getLast? = some '\\'
        · -- the directive goes on in the next line
          have hv : v.getLast? ≠ some '\\' := by
            cases v with
            | nil => simp
            | cons c v => simpa [List.getLast?_append] using hlast
          have hlen : v.length < k := by
            rw [← hk]
            simp
            omega
          simp only [line, hspliced, if_true]
          refine ih v.length hlen (fun x => ?_) hv _ _ rfl
          rw [List.append_assoc]
          exact hdir _
        · simp [line, hspliced, hdir]

/-- The number that a text leaves which begins a `#line` directive. -/
theorem text_directive {q u : List Char} (hq : '\n' ∉ q) (hqlast : q.getLast? ≠ some '\\')
    (hdir : ∀ x, isLineDirective (q ++ x) = true) (hlast : u.getLast? ≠ some '\\')
    (n m : Option Nat) : text ⟨n, []⟩ (q ++ u) = text ⟨m, []⟩ (q ++ u) := by
  rw [text_append_pending n u hq hqlast, text_append_pending m u hq hqlast,
    text_pending_directive hdir hlast n m]

end Reader

/-! ## `#line` directives -/

/-- The beginning of a `#line` directive. -/
def hashLine : List Char := ['#', 'l', 'i', 'n', 'e', ' ']

theorem directive?_hashLine (x : List Char) :
    directive? (hashLine ++ x) = some (['l', 'i', 'n', 'e', ' '] ++ x) := by
  simp [directive?, hashLine, isBlank]

theorem isLineDirective_hashLine (x : List Char) : isLineDirective (hashLine ++ x) = true := by
  rw [isLineDirective, directive?_hashLine]
  rfl

/-- What follows the number of a `#line` directive: nothing, or a blank and a
string literal. -/
def FileName (rest : List Char) : Prop :=
  rest = [] ∨ ∃ body ∈ lang stringChars, rest = ' ' :: '"' :: (body ++ ['"'])

theorem mem_lineArgs {ds rest : List Char} (hne : ds ≠ []) (hds : ∀ c ∈ ds, c.isDigit)
    (hrest : FileName rest) : ' ' :: (ds ++ rest) ∈ lang lineArgs := by
  have hblank : [' '] ∈ lang (plus (.cls isBlank)) := Regex.mem_lang_plus_cls.mpr
      (by simp [isBlank])
  have hdigits : ds ∈ lang (plus (.cls Char.isDigit)) := Regex.mem_lang_plus_cls.mpr ⟨hne, hds⟩
  refine Regex.append_mem_lang_seq hblank (Regex.append_mem_lang_seq hdigits ?_)
  rcases hrest with rfl | ⟨body, hbody, rfl⟩
  · refine Regex.append_mem_lang_seq (u := []) (v := []) (Regex.nil_mem_lang_star _) ?_
    exact Regex.append_mem_lang_seq (u := []) (v := []) (by simp) (by simp)
  · have hquote : ['"'] ∈ lang (.cls (· == '"')) := by simp
    have hname : '"' :: (body ++ ['"']) ∈ lang (seqs [.cls (· == '"'), stringChars,
        .cls (· == '"'), .star (.cls isBlank)]) := by
      refine Regex.append_mem_lang_seq hquote (Regex.append_mem_lang_seq hbody ?_)
      refine Regex.append_mem_lang_seq (v := []) hquote ?_
      exact Regex.append_mem_lang_seq (u := []) (v := []) (Regex.nil_mem_lang_star _) (by simp)
    refine Regex.append_mem_lang_seq (u := [' ']) (by simp [isBlank]) ?_
    have hopt := Regex.append_mem_lang_seq (v := [])
      (Regex.mem_lang_opt.mpr (.inl hname)) (b := .eps) (by simp)
    rw [List.append_nil] at hopt
    exact hopt

theorem lineNumber_hashLine {ds rest : List Char} (hne : ds ≠ []) (hds : ∀ c ∈ ds, c.isDigit)
    (hrest : FileName rest) (hpos : Nat.ofDigitChars 10 ds 0 ≠ 0) :
    lineNumber (hashLine ++ (ds ++ rest)) = some (Nat.ofDigitChars 10 ds 0) := by
  have hargs : (['l', 'i', 'n', 'e', ' '] ++ (ds ++ rest)).dropWhile isWordChar = ' ' ::
      (ds ++ rest) := by
    rfl
  have hblank : (ds ++ rest).dropWhile isBlank = ds ++ rest := by
    obtain ⟨c, ds, rfl⟩ := List.exists_cons_of_ne_nil hne
    have hc : isBlank c = false := by
      have := hds c List.mem_cons_self
      by_contra hb
      simp only [isBlank, Bool.not_eq_false, Bool.or_eq_true, beq_iff_eq] at hb
      rcases hb with (((rfl | rfl) | rfl) | rfl) | rfl <;> simp_all [Char.isDigit]
    simp [hc]
  have hdigits : (ds ++ rest).takeWhile Char.isDigit = ds := by
    rw [List.takeWhile_append_of_pos hds]
    rcases hrest with rfl | ⟨body, -, rfl⟩ <;> simp [Char.isDigit]
  have haccepts := Regex.accepts_iff.mpr (mem_lineArgs hne hds hrest)
  rw [lineNumber, directive?_hashLine]
  simp only [hargs]
  rw [List.dropWhile_cons_of_pos (by simp [isBlank]), hblank, hdigits, if_pos ⟨haccepts, hpos⟩]

end LibCheck.CLines
