import LibCheck.Acceptance
import LibCheck.CLines
import LibCheck.CLiteral
import Mathlib.Data.List.TakeWhile

/-!
# LibCheck.LineNumbers

The lines of a specification in the output of `checkmk`, and the numbers that a C
compiler gives to them.

The script announces line 1 with the boilerplate, and again the number of the next
line after each test directive; any other directive leaves `needs_line_decl`
behind, and the first line with something on it then gets a `#line` directive of
its own.  `Numbered` is what each line of the input keeps.  Names are written as
string literals that denote them (`stringEncode_literal`).
-/

namespace LibCheck.Checkmk

open Awk
open CLines (Reader hashLine)

/-! ## what is asked for -/

/-- The input lines that were passed through, with their numbers. -/
def copied (out : List Out) : List (Nat × Text) :=
  out.filterMap fun o => match o with
    | .gen _ => none
    | .copy n t => some (n, t)

/-- The lines of an input that are no directives, with their numbers. -/
def plainLines (lines : List Text) : List (Nat × Text) :=
  (lines.zipIdx 1).filterMap fun l => if classify l.1 = .plain then some (l.2, l.1) else none

/-- What a C compiler knows after some output. -/
def readerAfter (out : List Out) : Reader := out.foldl (fun r o => r.text o.text) Reader.start

/-- A C compiler gives every input line with something on it its own number. -/
def Attributed (out : List Out) : Prop :=
  ∀ pre n t post, out = pre ++ .copy n t :: post → ppNonBlank.occursIn t →
    (readerAfter pre).next = some n

/-- The user's lines are kept: as they are, once each, in order, and under their
numbers. -/
def LinesKept (lines : List Text) (out : List Out) : Prop :=
  copied out = plainLines lines ∧ Attributed out

/-- The number that the first line of the input gets: the one after the `#line`
directive of the boilerplate, as C reads that. -/
def headerNumber (filename : Text) : Option Nat :=
  (Reader.text ⟨none, []⟩ (lit "#line 1 " ++ stringEncode filename)).next

/-- The lines before the first directive. -/
def leading (lines : List Text) : List Text := lines.takeWhile fun l => classify l = .plain

/-! ## more output -/

@[simp] theorem copied_append (o o' : List Out) : copied (o ++ o') = copied o ++ copied o' := by
  simp [copied]

@[simp] theorem copied_map_gen (ts : List Text) : copied (ts.map .gen) = [] := by
  simp [copied]

theorem plainLines_concat (lines : List Text) (line : Text) :
    plainLines (lines ++ [line]) =
      plainLines lines ++ if classify line = .plain then [(lines.length + 1, line)] else [] := by
  by_cases h : classify line = .plain <;> simp [plainLines, List.zipIdx_append, h, Nat.add_comm]

theorem readerAfter_append (o o' : List Out) :
    readerAfter (o ++ o') = o'.foldl (fun r o => r.text o.text) (readerAfter o) := by
  rw [readerAfter, List.foldl_append]
  rfl

/-- One more line of output. -/
theorem attributed_concat {out : List Out} {o : Out} :
    Attributed (out ++ [o]) ↔ Attributed out ∧
      ∀ n t, o = .copy n t → ppNonBlank.occursIn t → (readerAfter out).next = some n := by
  constructor
  · intro h
    refine ⟨fun pre n t post hout => h pre n t (post ++ [o]) (by simp [hout]), ?_⟩
    intro n t ho
    exact h out n t [] (by simp [ho])
  · rintro ⟨hout, ho⟩ pre n t post heq
    rcases List.eq_nil_or_concat post with rfl | ⟨post, o', rfl⟩
    · obtain ⟨rfl, hlast⟩ := List.append_inj' heq rfl
      exact ho n t (by simpa using hlast)
    · have heq' : out ++ [o] = (pre ++ .copy n t :: post) ++ [o'] := by simpa using heq
      exact hout pre n t post (List.append_inj' heq' rfl).1

theorem attributed_append_gen {out : List Out} (ts : List Text) :
    Attributed (out ++ ts.map .gen) ↔ Attributed out := by
  induction ts using List.reverseRecOn with
  | nil => simp
  | append_singleton ts t ih =>
      rw [List.map_append, ← List.append_assoc, List.map_singleton, attributed_concat, ih]
      simp

theorem attributed_concat_copy {out : List Out} {n : Nat} {t : Text} :
    Attributed (out ++ [.copy n t]) ↔ Attributed out ∧
      (ppNonBlank.occursIn t → (readerAfter out).next = some n) := by
  rw [attributed_concat]
  simp

/-! ## generated lines -/

/-- Lines that are not spliced with the next one. -/
def Ended (ts : List Text) : Prop := ∀ t ∈ ts, t.getLast? ≠ some '\\'

theorem ended_append {ts ts' : List Text} : Ended (ts ++ ts') ↔ Ended ts ∧ Ended ts' := by
  simp only [Ended, List.forall_mem_append]

/-- The end of a line decides whether it is spliced. -/
theorem getLast?_append_ne (t : Text) {u : Text} (hne : u ≠ []) (hu : u.getLast? ≠ some '\\') :
    (t ++ u).getLast? ≠ some '\\' := by
  rwa [List.getLast?_append_of_ne_nil _ hne]

/-- A call is not spliced with the next line. -/
theorem getLast?_append_call (t : Text) : (t ++ lit ");").getLast? ≠ some '\\' :=
  getLast?_append_ne t (by decide) (by decide)

theorem isDigit_of_mem_decimal {n : Nat} {c : Char} (hc : c ∈ decimal n) : c.isDigit :=
  Nat.isDigit_of_mem_toDigits (by omega) (by omega) hc

theorem getLast?_append_decimal (t : Text) (n : Nat) : (t ++ decimal n).getLast? ≠ some '\\' := by
  refine getLast?_append_ne t (decimal_ne_nil n) fun h => ?_
  have hdigit := isDigit_of_mem_decimal (List.mem_of_getLast? h)
  simp [Char.isDigit] at hdigit

theorem ended_closing (s : Vars) : Ended (closing s) := by
  unfold closing Ended
  split <;> simp [lit]

theorem ended_mainDeclarations (s : Vars) : Ended (mainDeclarations s) := by
  intro t ht
  simp only [mainDeclarations, List.mem_append, List.mem_flatMap, List.mem_cons, List.mem_map,
    List.not_mem_nil, or_false] at ht
  rcases ht with ⟨i, -, rfl | ⟨j, -, rfl⟩⟩ | rfl | rfl
  · exact getLast?_append_call _
  · exact getLast?_append_call _
  · simp [lit]
  · simp [lit]

theorem ended_testBinding (tcvar t : Text) (type : Nat) (par : Nat → Text) :
    Ended (testBinding tcvar t type par) := by
  unfold testBinding
  repeat' split
  · exact List.forall_mem_singleton.mpr (getLast?_append_call _)
  · exact List.forall_mem_singleton.mpr (getLast?_append_call _)
  · exact List.forall_mem_singleton.mpr (getLast?_append_call _)
  · exact List.forall_mem_singleton.mpr (getLast?_append_call _)
  · exact List.forall_mem_singleton.mpr (getLast?_append_call _)
  · exact List.forall_mem_singleton.mpr (getLast?_append_call _)
  · simp [Ended]

theorem ended_runnerBindings (s : Vars) : Ended (runnerBindings s) := by
  refine ended_append.mpr ⟨?_, ?_⟩
  · intro t ht
    simp only [List.mem_flatMap, List.mem_cons] at ht
    obtain ⟨i, -, j, -, rfl | ⟨k, -, ht⟩⟩ := ht
    · exact getLast?_append_call _
    · exact ended_testBinding _ _ _ _ t ht
  · intro t ht
    split at ht
    · simp only [List.mem_cons, List.mem_map] at ht
      rcases ht with rfl | ⟨i, -, rfl⟩
      · simp
      · exact getLast?_append_call _
    · simp at ht

theorem ended_opening (s : Vars) : Ended (opening s) := by
  refine ended_append.mpr ⟨ended_append.mpr ⟨ended_closing s, ?_⟩, ended_mainDeclarations s⟩
  simp [Ended, lit]

theorem ended_running (s : Vars) : Ended (running s) := by
  have hopen : Ended (if s.mainPreDone then [] else opening s) := by
    split
    · simp [Ended]
    · exact ended_opening s
  refine ended_append.mpr ⟨ended_append.mpr ⟨ended_append.mpr ⟨hopen, ?_⟩, ended_runnerBindings s⟩,
    ?_⟩
  · simp [Ended]
  · simp [Ended, lit]

/-- Nothing is spliced after generated lines. -/
theorem readerAfter_append_gen_pending {out : List Out} {ts : List Text} (h : Ended ts)
    (hout : (readerAfter out).pending = []) :
    (readerAfter (out ++ ts.map .gen)).pending = [] := by
  induction ts using List.reverseRecOn with
  | nil => simpa using hout
  | append_singleton ts t ih =>
      rw [List.map_append, ← List.append_assoc, readerAfter_append]
      exact Reader.text_pending _ (h t (by simp))

/-! ## `#line` directives -/

theorem hashLine_append (t : Text) : lit "#line 1 " ++ t = hashLine ++ (lit "1 " ++ t) := rfl

/-- The `#line` directive without a file name. -/
theorem readerAfter_concat_lineDecl {out : List Out} {n : Nat} (hn : n ≠ 0)
    (hout : (readerAfter out).pending = []) :
    readerAfter (out ++ [.gen (lit "#line " ++ decimal n)]) = ⟨some n, []⟩ := by
  have hvalue : Nat.ofDigitChars 10 (decimal n) 0 = n := Nat.ofDigitChars_ten_toDigits
  have hnumber := CLines.lineNumber_hashLine (decimal_ne_nil n) (fun c => isDigit_of_mem_decimal)
    (.inl rfl) (by rwa [hvalue])
  rw [hvalue, List.append_nil] at hnumber
  have hnewline : '\n' ∉ hashLine ++ decimal n := by
    rw [List.mem_append, not_or]
    refine ⟨by decide, fun hc => ?_⟩
    simpa [Char.isDigit] using isDigit_of_mem_decimal hc
  rw [readerAfter_append, Reader.eq_of_pending hout]
  show Reader.text _ (hashLine ++ decimal n) = _
  rw [Reader.text_of_line _ hnewline,
    Reader.line_of_directive _ (getLast?_append_decimal hashLine n)
      (CLines.isLineDirective_hashLine _), hnumber]

/-- The boilerplate of a file that is given by name. -/
theorem readerAfter_boilerplate {s : Vars} (hstdin : readsStdin s.filename = false)
    (hclean : s.cleanMode = false) :
    readerAfter ((boilerplate s).map .gen) = ⟨headerNumber s.filename, []⟩ := by
  have hheader : (lit "1 " ++ stringEncode s.filename).getLast? ≠ some '\\' := by
    rw [stringEncode, ← List.append_assoc]
    exact getLast?_append_ne _ (by decide) (by decide)
  have hedit : ∀ t : Text, (t ++ lit " instead.").getLast? ≠ some '\\' := fun t =>
    getLast?_append_ne t (by decide) (by decide)
  have hfront : Ended [lit "/*", lit " * DO NOT EDIT THIS FILE. Generated by checkmk.",
      lit " * Edit the original source file " ++
        srcfile { s with isStdin := readsStdin s.filename || s.isStdin } ++ lit " instead.",
      lit " */", [], lit "#include <check.h>", []] := by
    simp only [Ended, List.forall_mem_cons]
    exact ⟨by decide, by decide, hedit _, by decide, by decide, by decide, by decide, by simp⟩
  have hpending := @readerAfter_append_gen_pending [] _ hfront rfl
  rw [List.nil_append] at hpending
  rw [boilerplate, if_neg (by simp [hstdin, hclean]), List.map_append, readerAfter_append]
  -- whatever the number is before the directive, it does not matter
  rw [Reader.eq_of_pending hpending, List.map_singleton, List.foldl_cons, List.foldl_nil, Out.text,
    hashLine_append, Reader.text_directive (by decide) (by decide) CLines.isLineDirective_hashLine
      hheader _ none, headerNumber, hashLine_append]
  exact Reader.eq_of_pending (Reader.text_pending _
    (getLast?_append_ne hashLine (by simp [lit]) hheader))

/-! ## one line after the other -/

/-- What the lines read so far have left behind; `h` is the number that the first
one got. -/
structure Numbered (h : Option Nat) (lines : List Text) (s : Vars) : Prop where
  fnr : s.fnr = lines.length
  start : s.start = decide (lines = [])
  cleanMode : s.cleanMode = false
  out : lines = [] → s.out = []
  copied : copied s.out = plainLines lines
  pending : (readerAfter s.out).pending = []
  unsynced : (∀ l ∈ lines, classify l = .plain) → s.needsLineDecl = false
  next : lines ≠ [] → s.needsLineDecl = false → (readerAfter s.out).next =
    if ∀ l ∈ lines, classify l = .plain then h.map (· + lines.length) else some (lines.length + 1)
  attributed : Attributed s.out ↔
    h = some 1 ∨ ∀ l ∈ leading lines, ppNonBlank.occursIn l = false

theorem numbered_init (h : Option Nat) (filename : Text) :
    Numbered h [] (Vars.init false filename) where
  fnr := rfl
  start := rfl
  cleanMode := rfl
  out _ := rfl
  copied := rfl
  pending := rfl
  unsynced _ := rfl
  next hne := absurd rfl hne
  attributed := by simp [Attributed, Vars.init, leading]

/-- The lines before the first directive, with one more line. -/
theorem leading_concat (lines : List Text) (line : Text) :
    leading (lines ++ [line]) =
      if (∀ l ∈ lines, classify l = .plain) ∧ classify line = .plain then lines ++ [line]
      else leading lines := by
  induction lines with
  | nil => by_cases h : classify line = .plain <;> simp [leading, h]
  | cons l lines ih =>
      unfold leading at ih ⊢
      by_cases hl : classify l = .plain
      · simp only [List.cons_append, List.takeWhile_cons, hl, decide_true, if_true, ih,
          List.forall_mem_cons, true_and]
        split <;> rfl
      · simp [hl]

theorem leading_of_plain {lines : List Text} (h : ∀ l ∈ lines, classify l = .plain) :
    leading lines = lines := by
  rw [leading, List.takeWhile_eq_self_iff]
  simpa using h

/-- What stands before the line's own output. -/
theorem Numbered.begin {filename : Text} {lines : List Text} {s : Vars}
    (h : Numbered (headerNumber filename) lines s) (hfile : s.filename = filename)
    (hstdin : readsStdin filename = false) :
    let base := s.out ++ if s.start then (boilerplate s).map .gen else []
    LibCheck.Checkmk.copied base = plainLines lines ∧ (readerAfter base).pending = [] ∧
      (s.needsLineDecl = false → (readerAfter base).next =
        if ∀ l ∈ lines, classify l = .plain then (headerNumber filename).map (· + lines.length)
        else some (lines.length + 1)) ∧
      (Attributed base ↔ Attributed s.out) := by
  rw [← hfile] at hstdin h ⊢
  by_cases hnil : lines = []
  · have hreader := readerAfter_boilerplate hstdin h.cleanMode
    have hout := h.out hnil
    simp only [h.start, hnil, decide_true, if_true, hout, List.nil_append, hreader]
    refine ⟨by simp [plainLines], trivial, by simp, ?_⟩
    exact @attributed_append_gen [] (boilerplate s)
  · simp only [h.start, hnil, decide_false, Bool.false_eq_true, if_false, List.append_nil]
    exact ⟨h.copied, h.pending, h.next hnil, trivial⟩

/-- What a directive prints ends its lines, and only a test directive says what
the number of the next line is. -/
theorem emits_of_directive (line : Text) {s : Vars} {d : Directive} (hd : d ≠ .plain)
    (hclean : s.cleanMode = false) :
    ∃ ts, emits line s d = ts.map .gen ∧ Ended ts ∧
      (needsDecl line s d = false → ∃ ts', Ended ts' ∧
        ts = ts' ++ [lit "#line " ++ decimal (s.fnr + 1)]) := by
  cases d with
  | suite name => exact ⟨closing s, rfl, ended_closing s, by simp [needsDecl, hclean]⟩
  | tcase name => exact ⟨closing s, rfl, ended_closing s, by simp [needsDecl, hclean]⟩
  | test t =>
      have hfront : Ended ((if s.inTest then [lit "\x7d", lit "END_TEST", []] else []) ++
          [lit "START_TEST(" ++ t.name ++ lit ")", lit "\x7b"]) := by
        refine ended_append.mpr ⟨?_, ?_⟩
        · unfold Ended
          split <;> simp [lit]
        · simp only [Ended, List.forall_mem_cons]
          exact ⟨getLast?_append_ne _ (by decide) (by decide), by decide, by simp⟩
      refine ⟨_, rfl, ended_append.mpr ⟨hfront, ?_⟩, fun _ => ⟨_, hfront, by simp [hclean]⟩⟩
      rw [hclean]
      exact List.forall_mem_singleton.mpr (getLast?_append_decimal _ _)
  | mainPre =>
      refine ⟨_, rfl, ended_append.mpr ⟨ended_opening s, ?_⟩, by simp [needsDecl, hclean]⟩
      simp [Ended, lit]
  | mainPost =>
      refine ⟨_, rfl, ended_append.mpr ⟨ended_running s, ?_⟩, by simp [needsDecl, hclean]⟩
      simp [Ended, lit]
  | plain => exact absurd rfl hd

/-- A line with a directive. -/
theorem Numbered.after_directive {filename line : Text} {lines : List Text} {s : Vars}
    (h : Numbered (headerNumber filename) lines s) (hfile : s.filename = filename)
    (hstdin : readsStdin filename = false) (hd : classify line ≠ .plain) :
    Numbered (headerNumber filename) (lines ++ [line]) (after line s) := by
  obtain ⟨hout, hflags, hneeds⟩ := after_eq line s
  obtain ⟨hcopied, hpending, -, hattr⟩ := h.begin hfile hstdin
  have hbegin : (beginLine s).fnr = lines.length + 1 ∧ (beginLine s).cleanMode = false := by
    rw [beginLine_eq, ← h.fnr]
    simp [h.cleanMode, hfile, hstdin]
  obtain ⟨ts, hts, hended, hdecl⟩ := emits_of_directive line hd hbegin.2
  have hmixed : ¬ ∀ l ∈ lines ++ [line], classify l = .plain := fun hall => hd (hall line (by simp))
  rw [← List.append_assoc, hts] at hout
  simp only [flags, Prod.mk.injEq] at hflags
  constructor
  · rw [hflags.2.1, hbegin.1]
    simp
  · rw [hflags.2.2.1, beginLine_eq]
    simp
  · rw [hflags.2.2.2, hbegin.2]
  · simp
  · rw [hout, copied_append, hcopied, copied_map_gen, plainLines_concat, if_neg hd]
  · rw [hout]
    exact readerAfter_append_gen_pending hended hpending
  · exact fun hall => absurd hall hmixed
  · intro _ hneed
    rw [hneeds] at hneed
    obtain ⟨ts', hended', rfl⟩ := hdecl hneed
    rw [hout, List.map_append, ← List.append_assoc, List.map_singleton, readerAfter_concat_lineDecl
      (by omega) (readerAfter_append_gen_pending hended' hpending), if_neg hmixed, hbegin.1]
    simp
  · rw [hout, attributed_append_gen, hattr, h.attributed, leading_concat,
      if_neg (fun hboth => hd hboth.2)]

/-- A line that is passed through counts. -/
theorem readerAfter_concat_copy {out : List Out} {n : Nat} {t : Text} (hnewline : '\n' ∉ t)
    (hlast : t.getLast? ≠ some '\\') (hdir : CLines.isLineDirective t = false)
    (hout : (readerAfter out).pending = []) :
    readerAfter (out ++ [.copy n t]) = ⟨(readerAfter out).next.map (· + 1), []⟩ := by
  rw [readerAfter_append, Reader.eq_of_pending hout]
  show Reader.text _ t = _
  rw [Reader.text_of_line _ hnewline, Reader.line_of_plain _ hlast hdir]

/-- A line that is no directive. -/
theorem Numbered.after_plain {filename line : Text} {lines : List Text} {s : Vars}
    (h : Numbered (headerNumber filename) lines s) (hfile : s.filename = filename)
    (hstdin : readsStdin filename = false) (hd : classify line = .plain) (hnewline : '\n' ∉ line)
    (hlast : line.getLast? ≠ some '\\') (hdir : CLines.isLineDirective line = false) :
    Numbered (headerNumber filename) (lines ++ [line]) (after line s) := by
  obtain ⟨hout, hflags, hneeds⟩ := after_eq line s
  obtain ⟨hcopied, hpending, hnext, hattr⟩ := h.begin hfile hstdin
  have hbegin : (beginLine s).fnr = lines.length + 1 ∧ (beginLine s).cleanMode = false ∧
      (beginLine s).needsLineDecl = s.needsLineDecl := by
    rw [beginLine_eq, ← h.fnr]
    simp [h.cleanMode, hfile, hstdin]
  obtain ⟨hfnr, hclean, hneeds'⟩ := hbegin
  rw [hd, needsDecl, hclean, hneeds', Bool.or_false] at hneeds
  rw [hd, emits, ← List.append_assoc, ← List.append_assoc, hfnr] at hout
  generalize (s.out ++ if s.start then (boilerplate s).map Out.gen else []) = base at *
  -- the `#line` directive that the line may need
  have hpending' : (readerAfter (base ++ (lineDecl line (beginLine s)).map .gen)).pending = [] := by
    refine readerAfter_append_gen_pending ?_ hpending
    unfold lineDecl Ended
    split
    · exact List.forall_mem_singleton.mpr (getLast?_append_decimal _ _)
    · simp
  have hreader := readerAfter_concat_copy hnewline hlast hdir hpending' (n := lines.length + 1)
  have hdecl : (s.needsLineDecl && !ppNonBlank.occursIn line) = false →
      (readerAfter (base ++ (lineDecl line (beginLine s)).map .gen)).next =
        if ∀ l ∈ lines, classify l = .plain then (headerNumber filename).map (· + lines.length)
        else some (lines.length + 1) := by
    intro hneed
    cases hn : s.needsLineDecl with
    | false => simpa [lineDecl, hneeds', hn] using hnext hn
    | true =>
        have hmixed : ¬ ∀ l ∈ lines, classify l = .plain := fun hall => by
          simpa [hn] using h.unsynced hall
        have hblank : ppNonBlank.occursIn line = true := by simpa [hn] using hneed
        simp only [lineDecl, hneeds', hn, hblank, hclean, hfnr, Bool.not_false,
          Bool.and_self, if_true,
          List.map_singleton]
        rw [readerAfter_concat_lineDecl (by omega) hpending, if_neg hmixed]
  simp only [flags, Prod.mk.injEq] at hflags
  constructor
  · rw [hflags.2.1, hfnr]
    simp
  · rw [hflags.2.2.1, beginLine_eq]
    simp
  · rw [hflags.2.2.2, hclean]
  · simp
  · rw [hout, copied_append, copied_append, hcopied, copied_map_gen, plainLines_concat, if_pos hd]
    simp [LibCheck.Checkmk.copied]
  · rw [hout, hreader]
  · intro hall
    rw [hneeds, h.unsynced fun l hl => hall l (by simp [hl])]
    simp
  · intro _ hneed
    rw [hneeds] at hneed
    rw [hout, hreader, hdecl hneed]
    by_cases hall : ∀ l ∈ lines, classify l = .plain
    · rw [if_pos hall, if_pos (by simpa [hd, or_imp, forall_and] using hall)]
      simp [Nat.add_assoc, Function.comp_def]
    · rw [if_neg hall, if_neg (fun hall' => hall fun l hl => hall' l (by simp [hl]))]
      simp
  · rw [hout, attributed_concat_copy, attributed_append_gen, hattr, h.attributed, leading_concat]
    by_cases hall : ∀ l ∈ lines, classify l = .plain
    · rw [if_pos ⟨hall, hd⟩, hdecl (by simp [h.unsynced hall]), if_pos hall, leading_of_plain hall]
      cases hh : headerNumber filename with
      | none => simp [or_imp, forall_and]
      | some k =>
          by_cases hk : k = 1
          · simp [hk, Nat.add_comm]
          · have hk' : ¬ k + lines.length = lines.length + 1 := by omega
            simp [hk, hk', or_imp, forall_and]
    · rw [if_neg (fun hboth => hall hboth.1)]
      refine and_iff_left fun hline => ?_
      rw [hdecl (by simp [hline]), if_neg hall]

/-- The lines of an input. -/
theorem numbered_afterAll {filename : Text} (hstdin : readsStdin filename = false)
    (lines : List Text) (hlines : ∀ l ∈ lines, '\n' ∉ l ∧ l.getLast? ≠ some '\\' ∧
      CLines.isLineDirective l = false) :
    Numbered (headerNumber filename) lines (afterAll lines (Vars.init false filename)) ∧
      (afterAll lines (Vars.init false filename)).filename = filename := by
  induction lines using List.reverseRecOn with
  | nil => exact ⟨numbered_init _ filename, rfl⟩
  | append_singleton lines line ih =>
      obtain ⟨h, hfile⟩ := ih fun l hl => hlines l (by simp [hl])
      obtain ⟨hnewline, hlast, hdir⟩ := hlines line (by simp)
      have hconcat : afterAll (lines ++ [line]) (Vars.init false filename) =
          after line (afterAll lines (Vars.init false filename)) := by
        simp [afterAll]
      rw [hconcat]
      refine ⟨?_, ?_⟩
      · by_cases hd : classify line = .plain
        · exact h.after_plain hfile hstdin hd hnewline hlast hdir
        · exact h.after_directive hfile hstdin hd
      · have hflags := (after_eq line (afterAll lines (Vars.init false filename))).2.1
        simp only [flags, Prod.mk.injEq] at hflags
        rw [hflags.1, beginLine_eq]
        exact hfile

/-- The `END` rule only makes up lines. -/
theorem finish_out (s : Vars) : ∃ ts : List Text, (finish s).out = s.out ++ ts.map .gen := by
  cases h : s.mainPostDone with
  | true => exact ⟨[lit "\x7d"], by simp [finish, h, Vars.print]⟩
  | false =>
      refine ⟨running s ++ [[], lit "    return nf == 0 ? 0 : 1;"] ++ [lit "\x7d"], ?_⟩
      simp [finish, h, Vars.print, leaveMain_out]

/-! ## names -/

/-- `string_encode`, character by character. -/
theorem stringEncode_eq (raw : Text) : stringEncode raw =
    '"' :: ((raw.flatMap fun c => if c = '\\' ∨ c = '"' then ['\\', c] else [c]) ++ ['"']) := by
  have hbody : gsub (chr '"') (lit "\\\"") (gsub (chr '\\') (lit "\\\\") raw) =
      raw.flatMap fun c => if c = '\\' ∨ c = '"' then ['\\', c] else [c] := by
    rw [chr, chr, gsub_cls, gsub_cls, List.flatMap_assoc]
    congr 1
    funext c
    by_cases hback : c = '\\'
    · simp [hback, lit]
    · by_cases hquote : c = '"' <;> simp [hback, hquote, lit]
  simp only [stringEncode]
  rw [hbody]
  simp [lit]

/-- C reads the encoded characters back, and stops at the closing quote. -/
theorem reads_encoded {name : Text} (h : '\n' ∉ name) (rest : Text) :
    CLiteral.Reads
      ((name.flatMap fun c => if c = '\\' ∨ c = '"' then ['\\', c] else [c]) ++ '"' :: rest)
      name rest := by
  induction name with
  | nil => exact .quote rest
  | cons c name ih =>
      have hc : c ≠ '\n' := fun he => h (he ▸ List.mem_cons_self)
      have hname := ih fun hmem => h (List.mem_cons_of_mem c hmem)
      rw [List.flatMap_cons, List.append_assoc]
      by_cases hback : c = '\\'
      · simpa [hback] using hname.simpleEscape (c := '\\') rfl
      · by_cases hquote : c = '"'
        · simpa [hquote] using hname.simpleEscape (c := '"') rfl
        · simpa [hback, hquote] using hname.char hquote hc hback

/-- **What `string_encode` makes of a name without a newline is a string literal of
C that ends with its last character, whatever follows, and denotes the name; so no
two names get the same literal.** -/
theorem stringEncode_literal {name : Text} (h : '\n' ∉ name) :
    (∀ rest, CLiteral.literal (stringEncode name ++ rest) = some (name, rest)) ∧
      ∀ other : Text, '\n' ∉ other → stringEncode other = stringEncode name → other = name := by
  have hread : ∀ {name : Text}, '\n' ∉ name → ∀ rest,
      CLiteral.literal (stringEncode name ++ rest) = some (name, rest) := by
    intro name h rest
    have hreads := CLiteral.literal_of_reads (reads_encoded h rest)
    rw [stringEncode_eq]
    simpa using hreads
  constructor
  · exact hread h
  · intro other hother heq
    have hname := hread h []
    rw [← heq, hread hother] at hname
    simpa using hname

/-- A name that ends in backslashes, with quotes in it. -/
theorem stringEncode_literal_backslashes :
    let name := lit "C:\\x \"\\\"\\\\"
    (∀ rest, CLiteral.literal (stringEncode name ++ rest) = some (name, rest)) ∧
      ∀ other : Text, '\n' ∉ other → stringEncode other = stringEncode name → other = name :=
  stringEncode_literal (by decide)

/-- What stands between the quotes is the inside of a string literal. -/
theorem encoded_mem_stringChars (raw : Text) :
    (raw.flatMap fun c => if c = '\\' ∨ c = '"' then ['\\', c] else [c]) ∈
      Regex.lang CLines.stringChars := by
  induction raw using List.reverseRecOn with
  | nil => exact Regex.nil_mem_lang_star _
  | append_singleton raw c ih =>
      rw [List.flatMap_append]
      refine Regex.mem_lang_star_concat ih ?_
      by_cases h : c = '\\' ∨ c = '"'
      · have hpair : ['\\', c] ∈ Regex.lang (.seq (.cls (· == '\\')) (.cls fun _ => true)) :=
          Regex.cons_mem_lang_cls_seq.mpr ⟨by simp, by simp⟩
        simpa [h] using hpair
      · rw [not_or] at h
        simp [h]

/-- A file name without a newline is announced as it should be. -/
theorem headerNumber_of_newline_notMem {filename : Text} (h : '\n' ∉ filename) :
    headerNumber filename = some 1 := by
  have hname : CLines.FileName (' ' :: stringEncode filename) :=
    .inr ⟨_, encoded_mem_stringChars filename, by rw [stringEncode_eq]⟩
  have hnumber := CLines.lineNumber_hashLine (List.cons_ne_nil '1' [])
    (by simp [Char.isDigit]) hname (by decide)
  have hnewline : '\n' ∉ lit "#line 1 " ++ stringEncode filename := by
    intro hmem
    rw [stringEncode_eq] at hmem
    obtain ⟨c, hc, hnew⟩ : ∃ c ∈ filename,
        '\n' ∈ if c = '\\' ∨ c = '"' then ['\\', c] else [c] := by
      simpa [lit] using hmem
    have hc' : c ≠ '\n' := fun he => h (he ▸ hc)
    split at hnew <;> simp [hc'.symm] at hnew
  have hlast : (lit "#line 1 " ++ stringEncode filename).getLast? ≠ some '\\' := by
    rw [stringEncode, ← List.append_assoc]
    exact getLast?_append_ne _ (by decide) (by decide)
  rw [headerNumber, Reader.text_of_line _ hnewline, Reader.line_of_directive _ hlast
    (CLines.isLineDirective_hashLine _)]
  exact hnumber

end LibCheck.Checkmk
