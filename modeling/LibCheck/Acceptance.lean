import LibCheck.Harness

/-!
# LibCheck.Acceptance

`checkmk` as a whole: the specifications that it accepts, and the `main()` that
it generates for one.

The lines that set up suites are found in the output by how they begin
(`isSetup`).  `Shape` says how far `main()` has been generated; every line of the
input keeps it, and the `END` rule completes it.
-/

namespace LibCheck.Checkmk

open Awk

/-! ## the generated lines -/

/-- The lines of the output that the script made up. -/
def generated (out : List Out) : List Text :=
  out.filterMap fun o => match o with
    | .gen t => some t
    | .copy _ _ => none

@[simp] theorem generated_append (o o' : List Out) :
    generated (o ++ o') = generated o ++ generated o' := by
  simp [generated]

@[simp] theorem generated_map_gen (ts : List Text) : generated (ts.map .gen) = ts := by
  induction ts with
  | nil => rfl
  | cons t ts ih => simp [generated]

/-- The line that begins `main()`. -/
def mainLine : Text := lit "int main(void)"

/-- Is this a line that creates, fills or adds a suite or a test case, or declares
the runner or `nf`? -/
def isSetup (t : Text) : Bool :=
  [lit "    Suite *", lit "    TCase *", lit "    SRunner *", lit "    int nf;",
    lit "    suite_add_tcase(", lit "    tcase_add_", lit "    srunner_add_suite("].any
      (·.isPrefixOf t)

/-- Lines that neither begin `main()` nor set up anything. -/
def Quiet (ts : List Text) : Prop := ∀ t ∈ ts, isSetup t = false ∧ t ≠ mainLine

theorem quiet_append {ts ts' : List Text} : Quiet (ts ++ ts') ↔ Quiet ts ∧ Quiet ts' := by
  simp only [Quiet, List.forall_mem_append]

/-- A line that sets something up is indented. -/
theorem isSetup_of_take {t : Text} (h : t.take 4 ≠ lit "    ") : isSetup t = false := by
  have hall : ∀ u ∈ [lit "    Suite *", lit "    TCase *", lit "    SRunner *", lit "    int nf;",
      lit "    suite_add_tcase(", lit "    tcase_add_", lit "    srunner_add_suite("],
      u.take 4 = lit "    " ∧ 4 ≤ u.length := by
    decide
  rw [isSetup, List.any_eq_false]
  intro u hu hpre
  obtain ⟨v, rfl⟩ := List.isPrefixOf_iff_prefix.mp hpre
  obtain ⟨htake, hlen⟩ := hall u hu
  exact h (by rw [List.take_append_of_le_length hlen, htake])

theorem quiet_of_take {ts : List Text} (h : ∀ t ∈ ts, t.take 4 ≠ lit "    " ∧ t ≠ mainLine) :
    Quiet ts := fun t ht => ⟨isSetup_of_take (h t ht).1, (h t ht).2⟩

theorem Quiet.filter_eq_nil {ts : List Text} (h : Quiet ts) : ts.filter isSetup = [] := by
  simpa using fun t ht => (h t ht).1

theorem Quiet.notMem {ts : List Text} (h : Quiet ts) : mainLine ∉ ts :=
  fun hm => (h _ hm).2 rfl

theorem isSetup_text (st : Stmt) : isSetup st.text = true := by
  cases st with
  | tcaseAdd i j t => cases t with | mk k => cases k <;> simp [isSetup, Stmt.text, Kind.call, lit]
  | _ => simp [isSetup, Stmt.text, lit]

theorem text_ne_mainLine (st : Stmt) : st.text ≠ mainLine := by
  cases st <;> simp [Stmt.text, mainLine, lit]

theorem filter_isSetup_text (l : List Stmt) :
    (l.map Stmt.text).filter isSetup = l.map Stmt.text := by
  simp [isSetup_text]

theorem mainLine_notMem_text (l : List Stmt) : mainLine ∉ l.map Stmt.text := by
  simp [text_ne_mainLine]

/-! ## the shape of the output -/

/-- The statements of `main()` that have been printed. -/
def printed (post : Bool) (g : Harness) : List Stmt :=
  if post then mainStmts g else declStmts g ++ [.srunnerCreate, .declareNf]

/-- `main()` has not been begun, or it has and holds the statements that belong
into it by now. -/
def Shape (pre post : Bool) (g : Harness) (ts : List Text) : Prop :=
  if pre then ∃ front body, ts = front ++ mainLine :: body ∧ Quiet front ∧ mainLine ∉ body ∧
    body.filter isSetup = (printed post g).map Stmt.text
  else Quiet ts

/-- Quiet lines change nothing. -/
theorem Shape.append {pre post : Bool} {g : Harness} {ts new : List Text} (h : Shape pre post g ts)
    (hnew : Quiet new) : Shape pre post g (ts ++ new) := by
  cases pre with
  | false => exact quiet_append.mpr ⟨h, hnew⟩
  | true =>
      obtain ⟨front, body, rfl, hfront, hbody, hstmts⟩ := h
      refine ⟨front, body ++ new, by simp, hfront, ?_, ?_⟩
      · simp [hbody, hnew.notMem]
      · simp [hstmts, hnew.filter_eq_nil]

theorem quiet_closing (s : Vars) : Quiet (closing s) := by
  unfold closing Quiet
  split <;> simp +decide

/-- `main_pre` begins `main()`. -/
theorem shape_opening {ps : List Placed} {s : Vars} {ts : List Text} (h : Quiet ts)
    (hreg : Registered ps s) : Shape true false (harness ps) (ts ++ opening s) := by
  refine ⟨ts ++ closing s ++ [[]], lit "\x7b" :: mainDeclarations s, ?_, ?_, ?_, ?_⟩
  · simp [opening, mainLine]
  · exact quiet_append.mpr ⟨quiet_append.mpr ⟨h, quiet_closing s⟩, by simp +decide [Quiet]⟩
  · rw [hreg.mainDeclarations_eq]
    have hbrace : mainLine ≠ lit "\x7b" := by decide
    rw [List.mem_cons, not_or]
    exact ⟨hbrace, mainLine_notMem_text _⟩
  · rw [hreg.mainDeclarations_eq]
    have hbrace : isSetup (lit "\x7b") = false := by decide
    rw [List.filter_cons_of_neg (by rw [hbrace]; decide), filter_isSetup_text]
    rfl

/-- The last lines of `running`. -/
theorem quiet_running_tail : Quiet [[], lit "    srunner_run_all(sr, CK_ENV);",
    lit "    nf = srunner_ntests_failed(sr);", lit "    srunner_free(sr);"] := by
  simp +decide [Quiet]

/-- `main_post` completes the statements. -/
theorem shape_running {ps : List Placed} {s : Vars} {ts : List Text}
    (h : Shape s.mainPreDone false (harness ps) ts) (hreg : Registered ps s) :
    Shape true true (harness ps) (ts ++ running s) := by
  have hopen : Shape true false (harness ps) (ts ++ if s.mainPreDone then [] else opening s) := by
    cases hpre : s.mainPreDone with
    | true =>
        rw [hpre] at h
        simpa using h
    | false =>
        rw [hpre] at h
        exact shape_opening h hreg
  obtain ⟨front, body, hts, hfront, hbody, hstmts⟩ := hopen
  have hblank : isSetup [] = false := by decide
  have hne : mainLine ≠ [] := by decide
  have hsetup : (runnerBindings s).filter isSetup =
      (bindStmts (harness ps) ++ suiteStmts (harness ps)).map Stmt.text := by
    rw [hreg.runnerBindings_eq, List.map_append]
    split
    · simp [filter_isSetup_text, hblank]
    · rename_i hone
      have hnil : suiteStmts (harness ps) = [] := by
        rw [suiteStmts, show (harness ps).length - 1 = 0 by omega]
        rfl
      simp [filter_isSetup_text, hnil]
  have hmain : mainLine ∉ runnerBindings s := by
    rw [hreg.runnerBindings_eq]
    split <;> simp [mainLine_notMem_text, hne]
  refine ⟨front, body ++ ([[]] ++ runnerBindings s ++ [[], lit "    srunner_run_all(sr, CK_ENV);",
    lit "    nf = srunner_ntests_failed(sr);", lit "    srunner_free(sr);"]), ?_, hfront, ?_, ?_⟩
  · rw [running, ← List.append_assoc, ← List.append_assoc, ← List.append_assoc, hts]
    simp
  · simp only [List.mem_append, hbody, hmain, quiet_running_tail.notMem, List.mem_singleton, hne,
      or_self, not_false_eq_true]
  · simp only [List.filter_append, hstmts, hsetup, quiet_running_tail.filter_eq_nil]
    simp [printed, mainStmts, hblank]

/-! ## every line keeps the shape -/

/-- The shape of the output after some directives. -/
def ShapeAfter (ds : List Directive) (out : List Out) : Prop :=
  Shape (decide (.mainPre ∈ ds ∨ .mainPost ∈ ds)) (decide (.mainPost ∈ ds))
    (harness (reading ds).placed) (generated out)

theorem quiet_boilerplate (s : Vars) : Quiet (boilerplate s) := by
  unfold boilerplate
  refine quiet_of_take ?_
  split <;> simp [mainLine, lit]

theorem quiet_lineDecl (line : Text) (s : Vars) : Quiet (lineDecl line s) := by
  refine quiet_of_take ?_
  unfold lineDecl
  split <;> simp [mainLine, lit]

theorem quiet_test (line : Text) (t : Test) (s : Vars) :
    Quiet (generated (emits line s (.test t))) := by
  rw [emits, generated_map_gen]
  refine quiet_of_take ?_
  cases s.inTest <;> cases s.cleanMode <;> simp [mainLine, lit]

theorem shapeAfter_after {ds : List Directive} {line : Text} {s : Vars} (htracks : Tracks ds s)
    (hfit : Fits ds (classify line)) (h : ShapeAfter ds s.out) :
    ShapeAfter (ds ++ [classify line]) (after line s).out := by
  have hbegin : Tracks ds (beginLine s) := htracks.congr (core_beginLine s)
  have hpre : (beginLine s).mainPreDone = decide (.mainPre ∈ ds ∨ .mainPost ∈ ds) := by
    have := hbegin.mainPreDone
    cases hb : (beginLine s).mainPreDone <;> simp_all
  -- the boilerplate is quiet, so that only the directive's own lines matter
  have hstart : Quiet (generated (if s.start then (boilerplate s).map Out.gen else [])) := by
    split
    · rw [generated_map_gen]
      exact quiet_boilerplate s
    · simp [generated, Quiet]
  have hout := Shape.append h hstart
  rw [ShapeAfter, (after_eq line s).1, ← List.append_assoc, generated_append, generated_append]
  generalize generated s.out ++ generated (if s.start then (boilerplate s).map Out.gen else []) = ts
    at hout
  cases hd : classify line with
  | suite name =>
      rw [hd] at hfit
      simp only [hfit.1.1, hfit.1.2] at hout
      rw [emits, generated_map_gen]
      simpa [hfit.1.1, hfit.1.2, Reading.step] using hout.append (quiet_closing _)
  | tcase name =>
      rw [hd] at hfit
      simp only [hfit.1.1, hfit.1.2] at hout
      rw [emits, generated_map_gen]
      simpa [hfit.1.1, hfit.1.2, Reading.step] using hout.append (quiet_closing _)
  | test t =>
      rw [hd] at hfit
      simp only [hfit.1.1, hfit.1.2] at hout
      have hnew := hout.append (quiet_test line t (beginLine s))
      simpa [Shape, hfit.1.1, hfit.1.2] using hnew
  | mainPre =>
      rw [hd] at hfit
      simp only [hfit.1, hfit.2] at hout
      have hopen := shape_opening hout hbegin.registered
      have hquiet : Quiet [[], lit "    /* User-specified pre-run code */"] := by
        simp +decide [Quiet]
      have hnew := hopen.append hquiet
      rw [emits, generated_map_gen]
      simpa [hfit.2, Reading.step] using hnew
  | mainPost =>
      rw [hd] at hfit
      have hpost : (Directive.mainPost ∈ ds) = False := by simpa [Fits] using hfit
      rw [← hpre] at hout
      simp only [hpost, decide_false] at hout
      have hrun := shape_running hout hbegin.registered
      have hquiet : Quiet [[], lit "    /* User-specified post-run code */"] := by
        simp +decide [Quiet]
      have hnew := hrun.append hquiet
      rw [emits, generated_map_gen]
      simpa [Reading.step] using hnew
  | plain =>
      have hgen : generated (emits line (beginLine s) .plain) = lineDecl line (beginLine s) := by
        rw [emits, generated_append, generated_map_gen]
        simp [generated]
      rw [hgen]
      simpa [Reading.step] using hout.append (quiet_lineDecl line _)

theorem shapeAfter_afterAll {ds : List Directive} {s : Vars} (htracks : Tracks ds s)
    (h : ShapeAfter ds s.out) (lines : List Text)
    (hall : Throughout Fits (ds ++ lines.map classify)) :
    ShapeAfter (ds ++ lines.map classify) (afterAll lines s).out := by
  induction lines generalizing ds s with
  | nil => simpa [afterAll] using h
  | cons line lines ih =>
      have happ : ds ++ (line :: lines).map classify =
          (ds ++ [classify line]) ++ lines.map classify := by
        simp
      rw [happ] at hall ⊢
      obtain ⟨hds, hfit⟩ := throughout_concat.mp hall.of_append
      obtain ⟨-, htracks'⟩ := htracks.rules_of_fits (arranged_of_throughout hds) hfit
      exact ih htracks' (shapeAfter_after htracks hfit h) hall

/-- The `END` rule completes `main()`. -/
theorem shape_finish {ds : List Directive} {s : Vars} (htracks : Tracks ds s)
    (h : ShapeAfter ds s.out) :
    Shape true true (harness (reading ds).placed) (generated (finish s).out) := by
  have hbrace : Quiet [lit "\x7d"] := by simp +decide [Quiet]
  have hpre : s.mainPreDone = decide (.mainPre ∈ ds ∨ .mainPost ∈ ds) := by
    have := htracks.mainPreDone
    cases hb : s.mainPreDone <;> simp_all
  cases hpost : s.mainPostDone with
  | true =>
      have hmem : Directive.mainPost ∈ ds := htracks.mainPostDone.mp hpost
      have hold : Shape true true (harness (reading ds).placed) (generated s.out) := by
        simpa [ShapeAfter, hmem] using h
      simpa [finish, hpost, Vars.print, generated] using hold.append hbrace
  | false =>
      have hmem : Directive.mainPost ∉ ds := fun hm => by
        simpa [hpost] using htracks.mainPostDone.mpr hm
      rw [ShapeAfter, ← hpre, decide_eq_false hmem] at h
      have hrun := shape_running h htracks.registered
      have hlast : Quiet [[], lit "    return nf == 0 ? 0 : 1;"] := by simp +decide [Quiet]
      have hnew := (hrun.append hlast).append hbrace
      have hout : generated (finish s).out = generated s.out ++ running s ++
          [[], lit "    return nf == 0 ? 0 : 1;"] ++ [lit "\x7d"] := by
        have hgen : (finish s).out = s.out ++
            (running s ++ [[], lit "    return nf == 0 ? 0 : 1;"] ++ [lit "\x7d"]).map .gen := by
          simp [finish, hpost, Vars.print, leaveMain_out]
        rw [hgen, generated_append, generated_map_gen]
        simp
      rw [hout]
      exact hnew

/-! ## acceptance -/

/-- The directives of an input. -/
def directives (content : Text) : List Directive := (records content).map classify

/-- An output whose `main()` sets up a harness, and nothing else: these are the
statements in it, and there are none before it. -/
def SetsUp (out : List Out) (g : Harness) : Prop :=
  ∃ front body, generated out = front ++ mainLine :: body ∧ mainLine ∉ front ∧ mainLine ∉ body ∧
    front.filter isSetup = [] ∧ body.filter isSetup = (mainStmts g).map Stmt.text

/-- What the script prints for a well-formed specification. -/
theorem shape_script (cleanMode : Bool) (filename : Text) {lines : List Text}
    (h : WellFormed (lines.map classify)) :
    Shape true true (harness (reading (lines.map classify)).placed)
      (generated (finish (afterAll lines (Vars.init cleanMode filename))).out) := by
  refine shape_finish (script_of_wellFormed cleanMode filename h).2 ?_
  have hinit : ShapeAfter [] (Vars.init cleanMode filename).out := by
    simp [ShapeAfter, Shape, Vars.init, generated, Quiet]
  exact shapeAfter_afterAll (tracks_init cleanMode filename) hinit lines h.1

/-- The statements for a specification register its tests if and only if none of them has the
name of a variable. -/
theorem exec_iff_of_holds {g : Harness} {ds : List Directive} (h : Holds g ds)
    (hne : ∃ t, .test t ∈ ds) :
    execAll Objects.none (mainStmts g) = some (builds g) ↔
      ∀ t, .test t ∈ ds → t.name ∉ mainLocals g := by
  obtain ⟨t, ht⟩ := hne
  have hg : g ≠ [] := by
    rintro rfl
    obtain ⟨p, hp, -⟩ := List.mem_map.mp (mem_placed.mpr ht)
    rw [← h.tests] at hp
    exact absurd hp List.not_mem_nil
  rw [exec_mainStmts_iff hg, h.tests]
  constructor
  · intro hall t ht
    obtain ⟨p, hp, rfl⟩ := List.mem_map.mp (mem_placed.mpr ht)
    exact hall p hp
  · intro hall p hp
    exact hall p.test (mem_placed.mp (List.mem_map_of_mem hp))

theorem two_le_length_of_mem_mainLocals {g : Harness} {name : Text} (h : name ∈ mainLocals g) :
    2 ≤ name.length := by
  rw [mainLocals_eq, List.mem_append] at h
  rcases h with h | h
  · obtain ⟨st, hst, hmem⟩ := List.mem_flatMap.mp h
    rcases mem_declStmts hst with ⟨i, name, rfl⟩ | ⟨i, j, name, rfl⟩ <;>
      obtain rfl := List.mem_singleton.mp hmem
    · have hpos := List.length_pos_iff.mpr (decimal_ne_nil (i + 1))
      rw [suiteVarName, List.length_append]
      exact Nat.add_le_add (le_refl 1) hpos
    · rw [tcaseVarName, List.length_append, List.length_append, List.length_append]
      show 2 ≤ 2 + _ + _ + _
      omega
  · simp only [List.mem_cons, List.not_mem_nil, or_false] at h
    rcases h with rfl | rfl <;> decide

/-- A specification with two suites. -/
def twoSuites : Text :=
  lit "#suite A\n#test a\nint x;\n#suite B\n#tcase C\n#test-loop( 0, 3 ) b \n"

theorem directives_twoSuites : directives twoSuites =
    [.suite (lit "A"), .test ⟨.test, lit "a", []⟩, .plain, .suite (lit "B"), .tcase (lit "C"),
      .test ⟨.loop, lit "b", [lit "0", lit "3"]⟩] := by
  decide +kernel

/-- A specification whose test has the name of the runner. -/
def testSr : Text := lit "#test sr\n"

end LibCheck.Checkmk
