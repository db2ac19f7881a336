import LibCheck.Registry

/-!
# LibCheck.Output

What `checkmk` prints for one line of its input, by the line's directive
(`emits`), and how the variables that decide about `#line` directives change
(`after_eq`).
-/

namespace LibCheck.Checkmk

open Awk Prog

/-! ## the parts of the output -/

/-- The first lines of the output. -/
def boilerplate (s : Vars) : List Text :=
  [lit "/*", lit " * DO NOT EDIT THIS FILE. Generated by checkmk.",
    lit " * Edit the original source file " ++
      srcfile { s with isStdin := readsStdin s.filename || s.isStdin } ++ lit " instead.",
    lit " */", [], lit "#include <check.h>", []] ++
  if readsStdin s.filename || s.cleanMode then [] else [lit "#line 1 " ++ stringEncode s.filename]

/-- The end of an open test. -/
def closing (s : Vars) : List Text := if s.inTest then [lit "\x7d", lit "END_TEST"] else []

/-- The beginning of `main()`. -/
def opening (s : Vars) : List Text :=
  closing s ++ [[], lit "int main(void)", lit "\x7b"] ++ mainDeclarations s

/-- The part of `main()` that runs the tests. -/
def running (s : Vars) : List Text :=
  (if s.mainPreDone then [] else opening s) ++ [[]] ++ runnerBindings s ++
    [[], lit "    srunner_run_all(sr, CK_ENV);", lit "    nf = srunner_ntests_failed(sr);",
      lit "    srunner_free(sr);"]

/-- The `#line` directive that a line needs. -/
def lineDecl (line : Text) (s : Vars) : List Text :=
  if ppNonBlank.occursIn line && s.needsLineDecl && !s.cleanMode then
    [lit "#line " ++ decimal s.fnr]
  else []

/-- What is printed for a directive. -/
def emits (line : Text) (s : Vars) : Directive → List Out
  | .suite _ => (closing s).map .gen
  | .tcase _ => (closing s).map .gen
  | .test t =>
      ((if s.inTest then [lit "\x7d", lit "END_TEST", []] else []) ++
        [lit "START_TEST(" ++ t.name ++ lit ")", lit "\x7b"] ++
        if s.cleanMode then [] else [lit "#line " ++ decimal (s.fnr + 1)]).map .gen
  | .mainPre => (opening s ++ [[], lit "    /* User-specified pre-run code */"]).map .gen
  | .mainPost => (running s ++ [[], lit "    /* User-specified post-run code */"]).map .gen
  | .plain => (lineDecl line s).map .gen ++ [.copy s.fnr line]

/-- The flag for a missing `#line` directive after a directive. -/
def needsDecl (line : Text) (s : Vars) : Directive → Bool
  | .test _ => false
  | .plain => s.needsLineDecl && (!ppNonBlank.occursIn line || s.cleanMode)
  | _ => s.needsLineDecl || !s.cleanMode

/-! ## one line -/

theorem printBoilerplate_eq (s : Vars) :
    printBoilerplate s = { s with
      cleanMode := readsStdin s.filename || s.cleanMode
      isStdin := readsStdin s.filename || s.isStdin
      out := s.out ++ (boilerplate s).map .gen } := by
  cases hr : readsStdin s.filename <;> cases hc : s.cleanMode <;>
    simp [printBoilerplate, Vars.print, boilerplate, srcfile, hr, hc]

/-- What precedes the rules of the directives. -/
theorem beginLine_eq (s : Vars) :
    beginLine s = { s with
      fnr := s.fnr + 1
      start := false
      cleanMode := (s.start && readsStdin s.filename) || s.cleanMode
      isStdin := (s.start && readsStdin s.filename) || s.isStdin
      printLine := true
      out := s.out ++ if s.start then (boilerplate s).map .gen else [] } := by
  cases h : s.start with
  | false => simp [beginLine, h]
  | true => simp [beginLine, h, printBoilerplate_eq, boilerplate, srcfile]

theorem enterMain_out (s : Vars) : (enterMain s).out = s.out ++ (opening s).map .gen := by
  rw [enterMain, finishTest_eq]
  cases h : s.inTest <;>
    simp [Vars.print, opening, closing, h, mainDeclarations]

/-- The bindings do not depend on what is printed before them. -/
theorem print_runnerBindings (u : Vars) (ts : List Text) :
    (({ u with mainPostDone := true }.print [[]]).print
        (runnerBindings ({ u with mainPostDone := true }.print [[]]))).print ts =
      { u with mainPostDone := true, out := u.out ++ ([[]] ++ runnerBindings u ++
        ts).map .gen } := by
  have hbind : runnerBindings ({ u with mainPostDone := true }.print [[]]) = runnerBindings u := rfl
  rw [hbind]
  simp [Vars.print]

theorem leaveMain_out (s : Vars) : (leaveMain s).out = s.out ++ (running s).map .gen := by
  have hbind : runnerBindings (enterMain s) = runnerBindings s := by
    rw [enterMain, finishTest_eq]
    rfl
  rw [leaveMain, print_runnerBindings]
  cases h : s.mainPreDone with
  | true => simp [running, h]
  | false => simp [running, h, enterMain_out, hbind]

theorem next_out (line : Text) (s : Vars) (d : Directive) (hd : d ≠ .plain) :
    (next line s d).out = s.out ++ emits line s d := by
  cases d with
  | suite name =>
      cases h : s.inTest <;> simp [next, dropLine, finishTest_eq, emits, closing, h]
  | tcase name =>
      cases h : s.inTest <;> simp [next, dropLine, finishTest_eq, emits, closing, h]
  | test t => simp [next, registerTest_eq, openTest_eq, emits]
  | mainPre => simp [next, dropLine, Vars.print, emits, enterMain_out]
  | mainPost => simp [next, dropLine, Vars.print, emits, leaveMain_out]
  | plain => exact absurd rfl hd

/-- A directive is not printed. -/
theorem next_printLine (line : Text) (s : Vars) (d : Directive) (hd : d ≠ .plain) :
    (next line s d).printLine = false := by
  cases d with
  | plain => exact absurd rfl hd
  | _ => rfl

/-- The flags that decide about `#line` directives. -/
def flags (s : Vars) : Text × Nat × Bool × Bool := (s.filename, s.fnr, s.start, s.cleanMode)

theorem flags_enterMain (s : Vars) :
    flags (enterMain s) = flags s ∧ (enterMain s).needsLineDecl = s.needsLineDecl := by
  rw [enterMain, finishTest_eq]
  exact ⟨rfl, rfl⟩

theorem flags_leaveMain (s : Vars) :
    flags (leaveMain s) = flags s ∧ (leaveMain s).needsLineDecl = s.needsLineDecl := by
  rw [leaveMain, print_runnerBindings]
  cases h : s.mainPreDone with
  | true => exact ⟨rfl, rfl⟩
  | false => exact flags_enterMain s

theorem flags_next (line : Text) (s : Vars) (d : Directive) (hd : d ≠ .plain) :
    flags (next line s d) = flags s ∧ (next line s d).needsLineDecl = needsDecl line s d := by
  have hdrop : ∀ u : Vars, flags u = flags s ∧ u.needsLineDecl = s.needsLineDecl →
      flags (dropLine u) = flags s ∧
        (dropLine u).needsLineDecl = (s.needsLineDecl || !s.cleanMode) := by
    rintro u ⟨hflags, hneeds⟩
    have hclean : u.cleanMode = s.cleanMode := congrArg (fun f => f.2.2.2) hflags
    refine ⟨hflags, ?_⟩
    cases hc : s.cleanMode <;> simp [dropLine, hclean, hneeds, hc]
  cases d with
  | suite name => exact hdrop _ (by rw [finishTest_eq]; exact ⟨rfl, rfl⟩)
  | tcase name => exact hdrop _ (by rw [finishTest_eq]; exact ⟨rfl, rfl⟩)
  | test t =>
      simp only [next, registerTest_eq, openTest_eq]
      exact ⟨rfl, rfl⟩
  | mainPre => exact hdrop _ (flags_enterMain s)
  | mainPost => exact hdrop _ (flags_leaveMain s)
  | plain => exact absurd rfl hd

/-- The rule of `print_line`, for a line that is no directive. -/
theorem printRule_eq (line : Text) (s : Vars) (h : s.printLine = true) :
    printRule line s = { s with
      needsLineDecl := needsDecl line s .plain
      out := s.out ++ emits line s .plain } := by
  cases hb : ppNonBlank.occursIn line <;> cases hn : s.needsLineDecl <;> cases hc : s.cleanMode <;>
    simp [printRule, h, hb, hn, hc, Vars.print, needsDecl, emits, lineDecl]

/-- **What a line prints and leaves behind.** -/
theorem after_eq (line : Text) (s : Vars) :
    (after line s).out = s.out ++ ((if s.start then (boilerplate s).map .gen else []) ++
        emits line (beginLine s) (classify line)) ∧
      flags (after line s) = flags (beginLine s) ∧
      (after line s).needsLineDecl = needsDecl line (beginLine s) (classify line) := by
  have hbegin : (beginLine s).out = s.out ++ if s.start then (boilerplate s).map .gen else [] := by
    rw [beginLine_eq]
  rw [after]
  by_cases hd : classify line = .plain
  · rw [hd, next, printRule_eq line _ (by rw [beginLine_eq])]
    refine ⟨?_, rfl, rfl⟩
    simp [hbegin]
  · have hprint : printRule line (next line (beginLine s) (classify line)) =
        next line (beginLine s) (classify line) := by
      simp [printRule, next_printLine line _ _ hd]
    rw [hprint, next_out line _ _ hd, hbegin, List.append_assoc]
    exact ⟨rfl, flags_next line _ _ hd⟩

end LibCheck.Checkmk
