import LibCheck.LineNumbers

/-!
# LibCheck.LinePlaces

The lines of a specification that `checkmk` takes for the standard input.

Such an output has no `#line` directives, so that the number of a line is its place.
`extent` is the number of lines that the output has after some directives, and a line
keeps its number if this is the number of lines before it (`InPlace`).  A file that is
named like a number with the value zero is treated like that, too.
-/

namespace LibCheck.Checkmk

open Awk
open CLines (Reader)

/-! ## lines that count -/

/-- The text is one line, and neither a `#line` directive nor spliced with the next one. -/
def OneLine (t : Text) : Prop :=
  '\n' ∉ t ∧ t.getLast? ≠ some '\\' ∧ CLines.isLineDirective t = false

instance (t : Text) : Decidable (OneLine t) := inferInstanceAs (Decidable (_ ∧ _ ∧ _))

/-- Without a `#line` directive, the number of a line is its place. -/
theorem readerAfter_of_oneLine {out : List Out} (h : ∀ o ∈ out, OneLine o.text) :
    readerAfter out = ⟨some (out.length + 1), []⟩ := by
  induction out using List.reverseRecOn with
  | nil => rfl
  | append_singleton out o ih =>
      obtain ⟨hnewline, hlast, hdir⟩ := h o (by simp)
      rw [readerAfter_append, ih fun o' ho' => h o' (by simp [ho'])]
      show Reader.text _ o.text = _
      rw [Reader.text_of_line _ hnewline, Reader.line_of_plain _ hlast hdir, List.length_append]
      rfl

/-- A line whose first characters show that it is no directive. -/
theorem OneLine.of_front {front t : Text} (hfront : CLines.directive? (front ++ t) = none)
    (hnewline : '\n' ∉ front) (ht : '\n' ∉ t) (hlast : (front ++ t).getLast? ≠ some '\\') :
    OneLine (front ++ t) := by
  refine ⟨by simp [hnewline, ht], hlast, ?_⟩
  rw [CLines.isLineDirective, hfront]

theorem newline_notMem_decimal (n : Nat) : '\n' ∉ decimal n := by
  intro h
  simpa [Char.isDigit] using isDigit_of_mem_decimal h

theorem newline_notMem_stringEncode {name : Text} (h : '\n' ∉ name) : '\n' ∉ stringEncode name := by
  rw [stringEncode_eq]
  simp only [List.mem_cons, List.mem_append, List.mem_flatMap, not_or, not_exists, not_and,
    List.not_mem_nil, or_false]
  refine ⟨by decide, fun c hc hmem => ?_, by decide⟩
  have hne : c ≠ '\n' := fun he => h (he ▸ hc)
  split at hmem <;> simp [hne.symm] at hmem

theorem newline_notMem_suiteVarName (i : Nat) : '\n' ∉ suiteVarName i := by
  simp [suiteVarName, lit, newline_notMem_decimal]

theorem newline_notMem_tcaseVarName (i j : Nat) : '\n' ∉ tcaseVarName i j := by
  simp [tcaseVarName, lit, newline_notMem_decimal]

/-! ## names -/

/-- The names and the arguments of a directive are parts of one line. -/
def Directive.OneLine : Directive → Prop
  | .suite name => '\n' ∉ name
  | .tcase name => '\n' ∉ name
  | .test t => '\n' ∉ t.name ∧ ∀ a ∈ t.args, '\n' ∉ a
  | _ => True

theorem mem_of_mem_suiteOrTcase {line : Text} {c : Char} (h : c ∈ (suiteOrTcase line).2) :
    c ∈ line := by
  simp only [suiteOrTcase] at h
  split at h
  · exact mem_of_mem_substr (mem_of_mem_substr (mem_of_mem_substr (mem_of_mem_substrUpTo h)))
  · exact mem_of_mem_substr (mem_of_mem_substr (mem_of_mem_substr h))

theorem mem_of_mem_argumentsOf {n i : Nat} {line : Text} {c : Char}
    (h : c ∈ (argumentsOf n line).get i []) : c ∈ line := by
  have hfields : ∀ i, ∀ c ∈ (fieldsOf line).get i [], c ∈ line := by
    intro i c hc
    simp only [Arr.get, fieldsOf] at hc
    split at hc
    · cases hc
    · obtain ⟨t, ht, hct⟩ : ∃ t ∈ split line _, c ∈ t := by
        cases hget : (split line (Regex.seqs [ppWsOp,
          .cls fun c => c == '(' || c == ')' || c == ',', ppWsOp]))[i - 1]? with
        | none => rw [hget] at hc; cases hc
        | some t =>
            rw [hget] at hc
            exact ⟨t, List.mem_of_getElem? hget, hc⟩
      exact mem_of_mem_split ht hct
  have hall : ∀ l : List Nat, ∀ arr : Arr Nat Text, (∀ i, ∀ c ∈ arr.get i [], c ∈ line) →
      ∀ i, ∀ c ∈ (l.foldl (fun arr i => arr.set (i + 2)
        (gsub ppWsOp [] (arr.get (i + 2) []))) arr).get
        i [], c ∈ line := by
    intro l
    induction l with
    | nil => exact fun _ h => h
    | cons k l ih =>
        intro arr harr
        refine ih _ fun i c hc => ?_
        by_cases hik : i = k + 2
        · have hc : c ∈ gsub ppWsOp [] (arr.get (k + 2) []) := by simpa [Arr.get, hik] using hc
          exact harr _ c (mem_of_mem_gsub hc)
        · have hc : c ∈ arr.get i [] := by simpa [Arr.get, Arr.set_of_ne _ _ hik] using hc
          exact harr i c hc
  exact hall _ _ hfields i c h

/-- The directive on a line. -/
theorem oneLine_classify {line : Text} (h : '\n' ∉ line) : (classify line).OneLine := by
  have htest : ∀ k, (Directive.test (testOf k line)).OneLine := by
    refine fun k => ⟨fun hc => h (mem_of_mem_substr (mem_of_mem_sub hc)), fun a ha hc => ?_⟩
    simp only [testOf, List.mem_map] at ha
    obtain ⟨i, -, rfl⟩ := ha
    exact h (mem_of_mem_argumentsOf hc)
  have hname : '\n' ∉ (suiteOrTcase line).2 := fun hc => h (mem_of_mem_suiteOrTcase hc)
  unfold classify
  repeat' split
  all_goals first | exact hname | exact htest _ | trivial

/-- The tests that are placed, with their suites and test cases. -/
theorem oneLine_placed {ds : List Directive} (h : ∀ d ∈ ds, d.OneLine) :
    ∀ p ∈ (reading ds).placed, '\n' ∉ p.suite ∧ '\n' ∉ p.tcase ∧
      (Directive.test p.test).OneLine := by
  have hall : '\n' ∉ (reading ds).suite ∧ '\n' ∉ (reading ds).tcase ∧
      ∀ p ∈ (reading ds).placed, '\n' ∉ p.suite ∧ '\n' ∉ p.tcase ∧
        (Directive.test p.test).OneLine := by
    induction ds using List.reverseRecOn with
    | nil => exact ⟨by decide, by decide, by simp [reading]⟩
    | append_singleton ds d ih =>
        obtain ⟨hsuite, htcase, hplaced⟩ := ih fun d hd => h d (by simp [hd])
        have hd := h d (by simp)
        rw [reading_concat]
        cases d with
        | suite name => exact ⟨hd, hd, hplaced⟩
        | tcase name => exact ⟨hsuite, hd, hplaced⟩
        | test t =>
            refine ⟨hsuite, htcase, List.forall_mem_append.mpr ⟨hplaced, ?_⟩⟩
            exact List.forall_mem_singleton.mpr ⟨hsuite, htcase, hd⟩
        | _ => exact ⟨hsuite, htcase, hplaced⟩
  exact hall.2.2

/-! ## what is printed -/

/-- The names in a statement are parts of one line. -/
def Stmt.Plain : Stmt → Prop
  | .suiteCreate _ name => '\n' ∉ name
  | .tcaseCreate _ _ name => '\n' ∉ name
  | .tcaseAdd _ _ t => (Directive.test t).OneLine
  | _ => True

theorem newline_notMem_call (k : Kind) : '\n' ∉ k.call := by
  cases k <;> decide

theorem Stmt.Plain.oneLine {st : Stmt} (h : st.Plain) : OneLine st.text := by
  cases st with
  | suiteCreate i name =>
      rw [Stmt.text, List.append_assoc, List.append_assoc, List.append_assoc]
      refine .of_front rfl (by decide) ?_ ?_
      · simp [newline_notMem_suiteVarName, newline_notMem_stringEncode h, lit]
      · simp only [← List.append_assoc]
        exact getLast?_append_call _
  | tcaseCreate i j name =>
      rw [Stmt.text, List.append_assoc, List.append_assoc, List.append_assoc]
      refine .of_front rfl (by decide) ?_ ?_
      · simp [newline_notMem_tcaseVarName, newline_notMem_stringEncode h, lit]
      · simp only [← List.append_assoc]
        exact getLast?_append_call _
  | srunnerCreate => decide
  | declareNf => decide
  | suiteAddTcase i j =>
      rw [Stmt.text, List.append_assoc, List.append_assoc, List.append_assoc]
      refine .of_front rfl (by decide) ?_ ?_
      · simp [newline_notMem_suiteVarName, newline_notMem_tcaseVarName, lit]
      · simp only [← List.append_assoc]
        exact getLast?_append_call _
  | tcaseAdd i j t =>
      have hargs : '\n' ∉ t.args.flatMap fun a => lit ", " ++ a := by
        rw [List.mem_flatMap]
        rintro ⟨a, ha, hmem⟩
        exact h.2 a ha (by simpa [lit] using hmem)
      have htext : (Stmt.tcaseAdd i j t).text = lit "    " ++ t.kind.call ++ (lit "(" ++
          tcaseVarName i j ++ lit ", " ++ t.name ++ t.args.flatMap (fun a => lit ", " ++ a) ++
            lit ");") := by
        simp [Stmt.text]
      rw [htext]
      refine .of_front ?_ ?_ ?_ ?_
      · cases t.kind <;> rfl
      · simp [newline_notMem_call, lit]
      · simp only [List.mem_append, newline_notMem_tcaseVarName, h.1, hargs, or_false]
        decide
      · rw [← htext]
        exact getLast?_append_call _
  | srunnerAddSuite i =>
      rw [Stmt.text, List.append_assoc]
      refine .of_front rfl (by decide) ?_ ?_
      · simp [newline_notMem_suiteVarName, lit]
      · simp only [← List.append_assoc]
        exact getLast?_append_call _

/-- The statements for tests with names that are parts of one line. -/
theorem plain_of_mem_mainStmts {ps : List Placed}
    (h : ∀ p ∈ ps, '\n' ∉ p.suite ∧ '\n' ∉ p.tcase ∧ (Directive.test p.test).OneLine) :
    ∀ st ∈ mainStmts (harness ps), st.Plain := by
  have hsuites : ∀ su ∈ harness ps, '\n' ∉ su.1 ∧ ∀ tc ∈ su.2, '\n' ∉ tc.1 ∧
      ∀ t ∈ tc.2, (Directive.test t).OneLine := by
    intro su hsu
    obtain ⟨name, hname, rfl⟩ := List.mem_map.mp hsu
    obtain ⟨p, hp, rfl⟩ := mem_suitesOf.mp hname
    refine ⟨(h p hp).1, fun tc htc => ?_⟩
    obtain ⟨tcname, htcname, rfl⟩ := List.mem_map.mp htc
    obtain ⟨q, hq, -, rfl⟩ := mem_tcasesOf.mp htcname
    refine ⟨(h q hq).2.1, fun t ht => ?_⟩
    obtain ⟨r, hr, rfl⟩ := List.mem_map.mp ht
    exact (h r (List.mem_filter.mp hr).1).2.2
  rw [mainStmts]
  simp only [List.forall_mem_append]
  refine ⟨⟨⟨?_, by simp [Stmt.Plain]⟩, ?_⟩, ?_⟩
  · intro st hst
    obtain ⟨su, hsu, hst⟩ := List.mem_flatMap.mp hst
    have hplain := hsuites su.1 (List.fst_mem_of_mem_zipIdx hsu)
    rcases List.mem_cons.mp hst with rfl | hst
    · exact hplain.1
    · obtain ⟨tc, htc, rfl⟩ := List.mem_map.mp hst
      exact (hplain.2 tc.1 (List.fst_mem_of_mem_zipIdx htc)).1
  · intro st hst
    obtain ⟨su, hsu, hst⟩ := List.mem_flatMap.mp hst
    obtain ⟨tc, htc, hst⟩ := List.mem_flatMap.mp hst
    have hplain := (hsuites su.1 (List.fst_mem_of_mem_zipIdx hsu)).2 tc.1
        (List.fst_mem_of_mem_zipIdx htc)
    rcases List.mem_cons.mp hst with rfl | hst
    · trivial
    · obtain ⟨t, ht, rfl⟩ := List.mem_map.mp hst
      exact hplain.2 t ht
  · intro st hst
    obtain ⟨i, -, rfl⟩ := List.mem_map.mp hst
    trivial

theorem oneLine_map_text {l : List Stmt} (h : ∀ st ∈ l, st.Plain) :
    ∀ t ∈ l.map Stmt.text, OneLine t := by
  intro t ht
  obtain ⟨st, hst, rfl⟩ := List.mem_map.mp ht
  exact (h st hst).oneLine

theorem oneLine_closing (s : Vars) : ∀ t ∈ closing s, OneLine t := by
  unfold closing
  split <;> decide

section

variable {ps : List Placed} {s : Vars} (hreg : Registered ps s)
  (hps : ∀ p ∈ ps, '\n' ∉ p.suite ∧ '\n' ∉ p.tcase ∧ (Directive.test p.test).OneLine)
include hreg hps

theorem oneLine_opening : ∀ t ∈ opening s, OneLine t := by
  rw [opening, hreg.mainDeclarations_eq]
  refine List.forall_mem_append.mpr ⟨List.forall_mem_append.mpr ⟨oneLine_closing s, by decide⟩,
    oneLine_map_text fun st hst => plain_of_mem_mainStmts hps st ?_⟩
  exact List.mem_append_left _ (List.mem_append_left _ hst)

theorem oneLine_running : ∀ t ∈ running s, OneLine t := by
  have hplain := plain_of_mem_mainStmts hps
  rw [mainStmts] at hplain
  simp only [List.forall_mem_append] at hplain
  obtain ⟨⟨-, hbind⟩, hsuite⟩ := hplain
  have hopen : ∀ t ∈ (if s.mainPreDone then [] else opening s), OneLine t := by
    split
    · exact fun t ht => absurd ht List.not_mem_nil
    · exact oneLine_opening hreg hps
  have hbindings : ∀ t ∈ runnerBindings s, OneLine t := by
    rw [hreg.runnerBindings_eq]
    refine List.forall_mem_append.mpr ⟨oneLine_map_text hbind, ?_⟩
    split
    · exact List.forall_mem_cons.mpr ⟨by decide, oneLine_map_text hsuite⟩
    · exact fun t ht => absurd ht List.not_mem_nil
  rw [running]
  simp only [List.forall_mem_append]
  exact ⟨⟨⟨hopen, by decide⟩, hbindings⟩, by decide⟩

end

/-- The boilerplate of an input that is taken for the standard input: seven lines. -/
theorem boilerplate_of_readsStdin {s : Vars} (h : readsStdin s.filename = true) :
    (boilerplate s).length = 7 ∧ ∀ t ∈ boilerplate s, OneLine t := by
  rw [boilerplate, srcfile]
  simp only [h, Bool.true_or, if_true]
  exact ⟨rfl, by decide⟩

/-! ## how much is printed -/

/-- Is a test open after the directive? -/
def Directive.opens (before : Bool) : Directive → Bool
  | .plain => before
  | .test _ => true
  | _ => false

/-- Is a test open after some directives? -/
def opened (ds : List Directive) : Bool := ds.foldl Directive.opens false

/-- The number of lines that begin `main()`, after some directives. -/
def openingHeight (ds : List Directive) : Nat :=
  (if opened ds then 2 else 0) + 3 + ((declStmts (harness (reading ds).placed)).length + 2)

/-- The number of lines that bind the tests and run them. -/
def runningHeight (g : Harness) : Nat :=
  1 + ((bindStmts g).length + if 1 < g.length then (suiteStmts g).length + 1 else 0) + 4

/-- The number of lines that are printed for a directive, after some others. -/
def height (ds : List Directive) : Directive → Nat
  | .plain => 1
  | .suite _ => if opened ds then 2 else 0
  | .tcase _ => if opened ds then 2 else 0
  | .test _ => (if opened ds then 3 else 0) + 2
  | .mainPre => openingHeight ds + 2
  | .mainPost =>
      (if .mainPre ∈ ds then 0 else openingHeight ds) + runningHeight
        (harness (reading ds).placed) + 2

/-- The number of lines that are printed for directives, after those before. -/
def heights : List Directive → List Directive → Nat
  | _, [] => 0
  | before, d :: ds => height before d + heights (before ++ [d]) ds

theorem heights_concat (before ds : List Directive) (d : Directive) :
    heights before (ds ++ [d]) = heights before ds + height (before ++ ds) d := by
  induction ds generalizing before with
  | nil => simp [heights]
  | cons d' ds ih => simp [heights, ih, Nat.add_assoc]

/-- The number of lines of the output after some directives, the boilerplate among them. -/
def extent (ds : List Directive) : Nat := 7 + heights [] ds

theorem extent_concat (ds : List Directive) (d : Directive) :
    extent (ds ++ [d]) = extent ds + height ds d := by
  rw [extent, heights_concat, extent, Nat.add_assoc]
  rfl

/-- Every line with something on it that is no directive stands in the output where it stands in
the input. -/
def InPlace (lines : List Text) : Prop :=
  ∀ pre l post, lines = pre ++ l :: post → classify l = .plain → ppNonBlank.occursIn l →
    extent (pre.map classify) = pre.length

/-! ## one line after the other -/

/-- What a directive makes of an open test; in `main()` none is open. -/
theorem next_inTest {line : Text} {d : Directive} {s : Vars}
    (hmain : s.mainPreDone = true → s.inTest = false) :
    (next line s d).inTest = d.opens s.inTest := by
  have henter : (enterMain s).inTest = false := by
    rw [enterMain, finishTest_eq]
    rfl
  cases d with
  | suite name => rw [next, finishTest_eq]; rfl
  | tcase name => rw [next, finishTest_eq]; rfl
  | test t => rfl
  | mainPre => exact henter
  | mainPost =>
      rw [next, leaveMain, print_runnerBindings]
      cases h : s.mainPreDone with
      | true => exact hmain h
      | false => exact henter
  | plain => rfl

theorem after_inTest (line : Text) (s : Vars) :
    (after line s).inTest = (next line (beginLine s) (classify line)).inTest := by
  rw [after, printRule]
  split
  · simp only [Vars.print]
    split <;> rfl
  · rfl

section

variable {ds : List Directive} {s : Vars}

theorem length_closing (hin : s.inTest = opened ds) :
    (closing s).length = if opened ds then 2 else 0 := by
  rw [closing, hin]
  split <;> rfl

variable (htracks : Tracks ds s) (hin : s.inTest = opened ds)
include htracks hin

theorem length_opening : (opening s).length = openingHeight ds := by
  rw [opening, htracks.registered.mainDeclarations_eq, List.length_append, List.length_append,
    length_closing hin, List.length_map, List.length_append]
  rfl

theorem length_running (hpost : .mainPost ∉ ds) :
    (running s).length = (if .mainPre ∈ ds then 0 else openingHeight ds) +
      runningHeight (harness (reading ds).placed) := by
  have hpre : s.mainPreDone = true ↔ .mainPre ∈ ds := by
    rw [htracks.mainPreDone]
    exact or_iff_left hpost
  have hfront : (if s.mainPreDone then [] else opening s).length =
      if .mainPre ∈ ds then 0 else openingHeight ds := by
    by_cases h : .mainPre ∈ ds
    · rw [if_pos h, if_pos (hpre.mpr h)]
      rfl
    · rw [if_neg h, if_neg (mt hpre.mp h), length_opening htracks hin]
  have hbindings : (runnerBindings s).length = (bindStmts (harness (reading ds).placed)).length +
      if 1 < (harness (reading ds).placed).length
        then (suiteStmts (harness (reading ds).placed)).length + 1 else 0 := by
    rw [htracks.registered.runnerBindings_eq, List.length_append, List.length_map]
    split <;> simp
  rw [running, List.length_append, List.length_append, List.length_append, hfront, hbindings,
    runningHeight]
  simp only [List.length_cons, List.length_nil]
  omega

/-- What is printed for a directive, without `#line` directives. -/
theorem emits_height {line : Text} (hds : ∀ d ∈ ds, d.OneLine) (hclean : s.cleanMode = true)
    (hline : OneLine line) (hfit : Fits ds (classify line)) :
    (emits line s (classify line)).length = height ds (classify line) ∧
      ∀ o ∈ emits line s (classify line), OneLine o.text := by
  have hd := oneLine_classify hline.1
  have hgen : ∀ {ts : List Text}, (∀ t ∈ ts, OneLine t) → ∀ o ∈ ts.map Out.gen, OneLine o.text := by
    intro ts hts o ho
    obtain ⟨t, ht, rfl⟩ := List.mem_map.mp ho
    exact hts t ht
  cases hcl : classify line with
  | suite name =>
      exact ⟨by rw [emits, List.length_map, length_closing hin]; rfl, hgen (oneLine_closing s)⟩
  | tcase name =>
      exact ⟨by rw [emits, List.length_map, length_closing hin]; rfl, hgen (oneLine_closing s)⟩
  | test t =>
      rw [hcl] at hd
      have hstart : OneLine (lit "START_TEST(" ++ t.name ++ lit ")") := by
        rw [List.append_assoc]
        refine .of_front rfl (by decide) (by simpa [lit] using hd.1) ?_
        rw [← List.append_assoc]
        exact getLast?_append_ne _ (by decide) (by decide)
      rw [emits, hclean, hin, if_pos rfl, List.append_nil]
      refine ⟨?_, hgen (List.forall_mem_append.mpr ⟨by split <;> decide, ?_⟩)⟩
      · rw [height]
        cases opened ds <;> rfl
      · exact List.forall_mem_cons.mpr ⟨hstart, by decide⟩
  | mainPre =>
      have hopen := oneLine_opening htracks.registered (oneLine_placed hds)
      refine ⟨?_, hgen (List.forall_mem_append.mpr ⟨hopen, by decide⟩)⟩
      rw [emits, List.length_map, List.length_append, length_opening htracks hin]
      rfl
  | mainPost =>
      have hrun := oneLine_running htracks.registered (oneLine_placed hds)
      refine ⟨?_, hgen (List.forall_mem_append.mpr ⟨hrun, by decide⟩)⟩
      rw [hcl] at hfit
      rw [emits, List.length_map, List.length_append, length_running htracks hin hfit]
      rfl
  | plain =>
      have hdecl : lineDecl line s = [] := by simp [lineDecl, hclean]
      rw [emits, hdecl]
      exact ⟨rfl, List.forall_mem_singleton.mpr hline⟩

end

/-- What the lines read so far have left behind. -/
structure Laid (lines : List Text) (s : Vars) : Prop where
  tracks : Tracks (lines.map classify) s
  filename : readsStdin s.filename = true
  fnr : s.fnr = lines.length
  start : s.start = decide (lines = [])
  cleanMode : lines ≠ [] → s.cleanMode = true
  inTest : s.inTest = opened (lines.map classify)
  out : lines = [] → s.out = []
  length : lines ≠ [] → s.out.length = extent (lines.map classify)
  oneLine : ∀ o ∈ s.out, OneLine o.text
  copied : copied s.out = plainLines lines
  attributed : Attributed s.out ↔ InPlace lines

theorem laid_init {filename : Text} (hstdin : readsStdin filename = true) :
    Laid [] (Vars.init false filename) where
  tracks := tracks_init false filename
  filename := hstdin
  fnr := rfl
  start := rfl
  cleanMode h := absurd rfl h
  inTest := rfl
  out _ := rfl
  length h := absurd rfl h
  oneLine := by simp [Vars.init]
  copied := rfl
  attributed := by simp [Attributed, InPlace, Vars.init]

/-- One more line. -/
theorem inPlace_concat {lines : List Text} {line : Text} :
    InPlace (lines ++ [line]) ↔ InPlace lines ∧ (classify line = .plain → ppNonBlank.occursIn line →
      extent (lines.map classify) = lines.length) := by
  constructor
  · intro h
    refine ⟨fun pre l post heq => h pre l (post ++ [line]) (by simp [heq]), h lines line [] rfl⟩
  · rintro ⟨hlines, hline⟩ pre l post heq
    rcases List.eq_nil_or_concat post with rfl | ⟨post, l', rfl⟩
    · obtain ⟨rfl, hlast⟩ := List.append_inj' heq rfl
      obtain rfl : line = l := by simpa using hlast
      exact hline
    · have heq' : lines ++ [line] = (pre ++ l :: post) ++ [l'] := by simpa using heq
      exact hlines pre l post (List.append_inj' heq' rfl).1

/-- What stands before the line's own output. -/
theorem Laid.begin {lines : List Text} {s : Vars} (h : Laid lines s) :
    let base := s.out ++ if s.start then (boilerplate s).map .gen else []
    base.length = extent (lines.map classify) ∧ (∀ o ∈ base, OneLine o.text) ∧
      LibCheck.Checkmk.copied base = plainLines lines ∧ (Attributed base ↔ InPlace lines) := by
  by_cases hnil : lines = []
  · obtain ⟨hlen, hone⟩ := boilerplate_of_readsStdin h.filename
    have hattr := h.attributed
    rw [h.out hnil] at hattr
    simp only [h.start, hnil, decide_true, if_true, h.out hnil, List.nil_append] at hattr ⊢
    refine ⟨by rw [List.length_map, hlen]; rfl, ?_, by simp [plainLines], ?_⟩
    · intro o ho
      obtain ⟨t, ht, rfl⟩ := List.mem_map.mp ho
      exact hone t ht
    · exact (@attributed_append_gen [] (boilerplate s)).trans hattr
  · simp only [h.start, hnil, decide_false, Bool.false_eq_true, if_false, List.append_nil]
    exact ⟨h.length hnil, h.oneLine, h.copied, h.attributed⟩

theorem emits_gen (line : Text) (s : Vars) {d : Directive} (hd : d ≠ .plain) :
    ∃ ts : List Text, emits line s d = ts.map .gen := by
  cases d with
  | plain => exact absurd rfl hd
  | _ => exact ⟨_, rfl⟩

/-- In `main()` no test is opened. -/
theorem opened_of_main {ds : List Directive} (h : Throughout Fits ds)
    (hmain : .mainPre ∈ ds ∨ .mainPost ∈ ds) : opened ds = false := by
  induction ds using List.reverseRecOn with
  | nil => simp at hmain
  | append_singleton ds d ih =>
      obtain ⟨hds, hfit⟩ := throughout_concat.mp h
      have hopened : opened (ds ++ [d]) = d.opens (opened ds) := by
        simp [opened]
      rw [hopened]
      cases d with
      | test t =>
          obtain ⟨⟨hpre, hpost⟩, -⟩ := hfit
          simp [hpre, hpost] at hmain
      | plain => exact ih hds (by simpa using hmain)
      | _ => rfl

theorem Laid.after {lines : List Text} {line : Text} {s : Vars} (h : Laid lines s)
    (hlines : ∀ l ∈ lines, OneLine l) (hline : OneLine line)
    (hall : Throughout Fits ((lines ++ [line]).map classify)) :
    Laid (lines ++ [line]) (after line s) := by
  have hall' := hall
  rw [List.map_append, List.map_singleton] at hall'
  obtain ⟨hfits, hfit⟩ := throughout_concat.mp hall'
  have htracks := (h.tracks.rules_of_fits (arranged_of_throughout hfits) hfit).2
  have htracks' : Tracks ((lines ++ [line]).map classify) (Checkmk.after line s) := by
    rw [List.map_append]
    exact htracks
  obtain ⟨hout, hflags, -⟩ := after_eq line s
  obtain ⟨hlen, hone, hcopied, hattr⟩ := h.begin
  have hbegin : (beginLine s).filename = s.filename ∧ (beginLine s).fnr = lines.length + 1 ∧
      (beginLine s).start = false ∧ (beginLine s).cleanMode = true := by
    rw [beginLine_eq, ← h.fnr]
    refine ⟨rfl, rfl, rfl, ?_⟩
    by_cases hnil : lines = []
    · simp [h.start, hnil, h.filename]
    · simp [h.cleanMode hnil]
  have htracks₀ : Tracks (lines.map classify) (beginLine s) := h.tracks.congr (core_beginLine s)
  have hin : (beginLine s).inTest = opened (lines.map classify) := by
    rw [beginLine_eq]
    exact h.inTest
  have hds : ∀ d ∈ lines.map classify, d.OneLine := by
    intro d hd
    obtain ⟨l, hl, rfl⟩ := List.mem_map.mp hd
    exact oneLine_classify (hlines l hl).1
  obtain ⟨hheight, hemits⟩ := emits_height htracks₀ hin hds hbegin.2.2.2 hline hfit
  have honeline := List.forall_mem_append.mpr ⟨hone, hemits⟩
  have hreader := congrArg Reader.next (readerAfter_of_oneLine hone)
  rw [hlen] at hreader
  rw [← List.append_assoc] at hout
  generalize hbase : s.out ++ (if s.start then (boilerplate s).map Out.gen else []) = base at *
  simp only [flags, Prod.mk.injEq] at hflags
  constructor
  · exact htracks'
  · rw [hflags.1, hbegin.1]
    exact h.filename
  · rw [hflags.2.1, hbegin.2.1]
    simp
  · rw [hflags.2.2.1, hbegin.2.2.1]
    simp
  · rw [hflags.2.2.2]
    exact fun _ => hbegin.2.2.2
  · rw [after_inTest, next_inTest, hin]
    · simp [opened]
    · intro hpre
      rw [hin]
      exact opened_of_main hfits (htracks₀.mainPreDone.mp hpre)
  · simp
  · intro _
    rw [hout, List.length_append, hlen, hheight, List.map_append, List.map_singleton, extent_concat]
  · rw [hout]
    exact honeline
  · rw [hout, copied_append, hcopied, plainLines_concat]
    by_cases hd : classify line = .plain
    · rw [if_pos hd, hd, emits, copied_append, copied_map_gen, hbegin.2.1]
      rfl
    · obtain ⟨ts, hts⟩ := emits_gen line (beginLine s) hd
      rw [if_neg hd, hts, copied_map_gen]
  · rw [hout, inPlace_concat]
    by_cases hd : classify line = .plain
    · have hdecl : lineDecl line (beginLine s) = [] := by simp [lineDecl, hbegin.2.2.2]
      rw [hd, emits, hdecl, List.map_nil, List.nil_append, attributed_concat_copy, hattr, hreader,
        hbegin.2.1]
      simp
    · obtain ⟨ts, hts⟩ := emits_gen line (beginLine s) hd
      rw [hts, attributed_append_gen, hattr]
      simp [hd]

/-- The lines of an input. -/
theorem laid_afterAll {filename : Text} (hstdin : readsStdin filename = true) (lines : List Text)
    (hlines : ∀ l ∈ lines, OneLine l) (hall : Throughout Fits (lines.map classify)) :
    Laid lines (afterAll lines (Vars.init false filename)) := by
  induction lines using List.reverseRecOn with
  | nil => exact laid_init hstdin
  | append_singleton lines line ih =>
      have hall' := hall
      rw [List.map_append] at hall'
      have hlaid := ih (fun l hl => hlines l (by simp [hl])) hall'.of_append
      have hafter := hlaid.after (fun l hl => hlines l (by simp [hl])) (hlines line (by simp)) hall
      simpa [afterAll] using hafter

/-! ## whole inputs -/

/-- **`checkmk` keeps the user's lines and their numbers**, for a file that it does not take for
the standard input exactly if C reads the `#line` directive with the file's name as it is meant
(which it does for every name without a newline, `headerNumber_of_newline_notMem`), or if there is
nothing on the lines before the first directive; for another one exactly if every line with
something on it has as many lines before it in the output as in the input. -/
theorem linesKept_iff {filename content : Text} {s : Vars}
    (hrun : checkmk false filename content = .ok () s)
    (hlines : ∀ l ∈ records content, CLines.isLineDirective l = false ∧ l.getLast? ≠ some '\\') :
    LinesKept (records content) s.out ↔
      (readsStdin filename = false ∧ (headerNumber filename = some 1 ∨
          ∀ l ∈ leading (records content), ppNonBlank.occursIn l = false)) ∨
        (readsStdin filename = true ∧ InPlace (records content)) := by
  have hwf : WellFormed ((records content).map classify) := by
    by_contra hnot
    obtain ⟨e, s', he⟩ := script_of_not_wellFormed false filename hnot
    rw [checkmk, he] at hrun
    cases hrun
  rw [checkmk, (script_of_wellFormed false filename hwf).1] at hrun
  cases hrun
  have hone : ∀ l ∈ records content, OneLine l := fun l hl =>
    ⟨newline_notMem_of_mem_records hl, (hlines l hl).2, (hlines l hl).1⟩
  obtain ⟨ts, hts⟩ := finish_out (afterAll (records content) (Vars.init false filename))
  rw [LinesKept, hts, attributed_append_gen]
  cases hstdin : readsStdin filename with
  | false =>
      obtain ⟨hnumbered, -⟩ := numbered_afterAll hstdin (records content) hone
      rw [hnumbered.attributed]
      simp [hnumbered.copied]
  | true =>
      have hlaid := laid_afterAll hstdin (records content) hone hwf.1
      rw [hlaid.attributed]
      simp [hlaid.copied]

/-- A specification with code before its first test. -/
def codeFirst : Text := lit "int x;\n\n#test t\n  x++;\n#test u\n\n#tcase C\nint y;\n#test v\n"

theorem wellFormed_codeFirst : WellFormed ((records codeFirst).map classify) :=
  ⟨by decide +kernel, ⟨.test, lit "t", []⟩, by decide +kernel⟩

/-- Its lines are kept if it is given as `a.ts`. -/
theorem linesKept_named : ∃ s, checkmk false (lit "a.ts") codeFirst = .ok () s ∧
    LinesKept (records codeFirst) s.out := by
  have hs := (script_of_wellFormed false (lit "a.ts") wellFormed_codeFirst).1
  have hname : headerNumber (lit "a.ts") = some 1 := headerNumber_of_newline_notMem (by decide)
  exact ⟨_, hs, (linesKept_iff hs (by decide +kernel)).mpr (.inl ⟨by decide +kernel, .inl hname⟩)⟩

/-- A newline in the file's name breaks the directive of the boilerplate; and a file that is named
`0` gets no directives at all. -/
theorem not_linesKept_named :
    (∃ s, checkmk false (lit "a\nb") codeFirst = .ok () s ∧ ¬ LinesKept (records codeFirst) s.out) ∧
      (∃ s, checkmk false (lit "0") codeFirst = .ok () s ∧ ¬ LinesKept (records codeFirst) s.out) ∧
      ∀ l ∈ records codeFirst, CLines.isLineDirective l = false ∧ l.getLast? ≠ some '\\' := by
  refine ⟨⟨_, (script_of_wellFormed false (lit "a\nb") wellFormed_codeFirst).1, fun h => ?_⟩,
    ⟨_, (script_of_wellFormed false (lit "0") wellFormed_codeFirst).1, fun h => ?_⟩,
      by decide +kernel⟩
  · let out := (finish (afterAll (records codeFirst) (Vars.init false (lit "a\nb")))).out
    have hfirst := h.2 (out.take 8) 1 (lit "int x;") (out.drop 9) (by decide +kernel)
        (by decide +kernel)
    exact absurd hfirst (by decide +kernel)
  · let out := (finish (afterAll (records codeFirst) (Vars.init false (lit "0")))).out
    have hfirst := h.2 (out.take 7) 1 (lit "int x;") (out.drop 8) (by decide +kernel)
        (by decide +kernel)
    exact absurd hfirst (by decide +kernel)

end LibCheck.Checkmk
