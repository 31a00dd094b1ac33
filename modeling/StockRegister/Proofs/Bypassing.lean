import Mathlib.Data.Set.Insert
import Mathlib.Order.Nat
import StockRegister.Proofs.RunEvents

/-!
# Stages that are bypassed

A stage that is bypassed lets every operand pass its check of validity; all else of the table stays
as it is. `checkingRanks` are the ranks of the stages that still make the check. The table may be
cut at such a rank (`exists_stageTable_eq`), so an operand that is not valid is rejected there if
the stages before it are bypassed (`course_of_isLeast`). If no stage is left that makes the
check, or if the operand is valid, all that remains of the course is the rule of the last stage
(`course_of_unchecked`), which has a verdict for every operand (`Verdict.recommended`).

Neither of the two courses depends on the other ranks that are bypassed. So bypassing one stage more
is seen exactly if it is the first one that makes the check (`observable_of_not_isValid`).
`Assessor.evaluate_bypassed` puts these together (`Assessor.AnswersBypassed`) for all assessors that
settings describe, with any stages bypassed and after any calls.
-/

namespace StockRegister

/-! ## The ranks of checks -/

/-- The ranks of the stages that check validity if some are bypassed. -/
def checkingRanks (bypassed : List Nat) : Set Nat :=
  {k | 1 ≤ k ∧ k ≤ stageCount ∧ k ∉ bypassed}

theorem checkingRanks_cons (k : Nat) (bypassed : List Nat) :
    checkingRanks (k :: bypassed) = checkingRanks bypassed \ {k} := by
  ext j
  simp only [checkingRanks, List.mem_cons, not_or, Set.mem_ofPred_eq, Set.mem_sdiff,
    Set.mem_singleton_iff]
  tauto

/-- Either no stage checks validity, or one does so first. -/
theorem exists_isLeast_checkingRanks (bypassed : List Nat) :
    checkingRanks bypassed = ∅ ∨ ∃ k, IsLeast (checkingRanks bypassed) k := by
  classical
  rcases (checkingRanks bypassed).eq_empty_or_nonempty with h | h
  · exact Or.inl h
  · exact Or.inr ⟨_, h.isLeast_natFind⟩

/-- The first stage that checks validity stays the first one if another is bypassed. -/
theorem isLeast_checkingRanks_cons {k j : Nat} {bypassed : List Nat}
    (hj : IsLeast (checkingRanks bypassed) j) (hne : j ≠ k) :
    IsLeast (checkingRanks (k :: bypassed)) j := by
  rw [checkingRanks_cons]
  exact ⟨⟨hj.1, hne⟩, fun l hl => hj.2 hl.1⟩

/-! ## The table with stages bypassed -/

/-- The stage at a place of the table has the next rank, and the names at that place. -/
theorem getElem?_stagesFrom (rule : Option TerminalRule) (rank : Nat)
    (names : List (String × String)) (i : Nat) :
    (stagesFrom rule rank names)[i]? = names[i]?.map fun e =>
      ⟨rank + i, e.1, e.2, if rank + i = stageCount then rule else none, false⟩ := by
  induction names generalizing rank i with
  | nil => rfl
  | cons e names ih =>
    obtain ⟨name, subject⟩ := e
    cases i with
    | zero => rfl
    | succ i =>
      rw [stagesFrom, List.getElem?_cons_succ, List.getElem?_cons_succ, ih]
      simp only [Nat.add_right_comm, ← Nat.add_assoc]

/-- The stage of a rank that has the given name and subject. -/
def stageOf (rule : Option TerminalRule) (k : Nat) (name subject : String) : Stage :=
  ⟨k, name, subject, if k = stageCount then rule else none, false⟩

/-- The stage at a place of the table. -/
theorem getElem?_stageTable (rule : Option TerminalRule) (i : Nat) :
    (stageTable rule)[i]? = stageNames[i]?.map fun e => stageOf rule (1 + i) e.1 e.2 :=
  getElem?_stagesFrom rule 1 stageNames i

/-- The table is cut at a rank : before it stand stages of smaller ranks, which have no rule. -/
theorem exists_stageTable_eq (rule : Option TerminalRule) {k : Nat} (hk : 1 ≤ k)
    (hcount : k ≤ stageCount) :
    ∃ name subject, stageNames[k - 1]? = some (name, subject) ∧
      (∃ rest, stageTable rule =
        (stageTable rule).take (k - 1) ++ stageOf rule k name subject :: rest) ∧
      ∀ s ∈ (stageTable rule).take (k - 1), 1 ≤ s.rank ∧ s.rank < k ∧ s.rule = none := by
  obtain ⟨⟨name, subject⟩, hnames⟩ : ∃ e, stageNames[k - 1]? = some e :=
    ⟨_, List.getElem?_eq_getElem (Nat.sub_one_lt_of_le hk hcount)⟩
  refine ⟨name, subject, hnames, ⟨(stageTable rule).drop (k - 1 + 1), ?_⟩, fun s hs => ?_⟩
  · have hstage := getElem?_stageTable rule (k - 1)
    rw [hnames, Option.map_some, Nat.add_sub_cancel' hk] at hstage
    obtain ⟨hlength, hstage⟩ := List.getElem?_eq_some_iff.mp hstage
    rw [← hstage, ← List.drop_eq_getElem_cons, List.take_append_drop]
  · obtain ⟨j, hj⟩ := List.mem_iff_getElem?.mp hs
    rw [List.getElem?_take] at hj
    split_ifs at hj with hbelow
    rw [getElem?_stageTable] at hj
    obtain ⟨e, -, rfl⟩ := Option.map_eq_some_iff.mp hj
    have hrank : 1 + j < k := by omega
    exact ⟨Nat.le_add_right 1 j, hrank, if_neg (ne_of_lt (lt_of_lt_of_le hrank hcount))⟩

/-- A stage of the table with those of the given ranks bypassed. -/
def Stage.bypassed (ranks : List Nat) (s : Stage) : Stage :=
  { s with permissive := s.permissive || ranks.contains s.rank }

theorem bypass_eq_map (ranks : List Nat) (stages : List Stage) :
    bypass ranks stages = stages.map (Stage.bypassed ranks) :=
  rfl

theorem bypass_append (bypassed : List Nat) (stages rest : List Stage) :
    bypass bypassed (stages ++ rest) = bypass bypassed stages ++ bypass bypassed rest :=
  List.map_append

/-- Bypassing one stage more. -/
theorem bypass_bypass (k : Nat) (bypassed : List Nat) (stages : List Stage) :
    bypass [k] (bypass bypassed stages) = bypass (k :: bypassed) stages := by
  simp only [bypass_eq_map, List.map_map]
  refine List.map_congr_left fun s _ => ?_
  cases hs : s.permissive <;>
    simp [Stage.bypassed, hs, Bool.or_comm]

theorem map_name_bypass (bypassed : List Nat) (rule : Option TerminalRule) :
    (bypass bypassed (stageTable rule)).map (·.name) = stageNames.map Prod.fst := by
  rw [bypass, List.map_map]
  rfl

/-! ## The course -/

theorem Stage.objection_of_permissive {s : Stage} (hs : s.permissive = true) (o : Operand) :
    s.objection o = none := by
  rw [objection, if_pos hs]

/-- A stage has nothing against an operand if it is bypassed or the operand is valid. -/
theorem Stage.objection_bypassed {s : Stage} {ranks : List Nat} {o : Operand}
    (h : s.rank ∈ ranks ∨ o.IsValid) : (s.bypassed ranks).objection o = none := by
  rcases h with hrank | ho
  · exact objection_of_permissive (by simp [bypassed, hrank]) o
  · exact objection_of_isValid ho _

/-- A stage that has nothing against an operand leaves it to its rule. -/
theorem Stage.assess_of_objection_eq_none {s : Stage} {o : Operand} (h : s.objection o = none)
    (i : Injector) : s.assess o i = s.judge (.operand o) i := by
  simp only [assess, h]

/-- Bypassed stages without a rule let every operand pass to which none of them objects, and what is
logged of them does not show that they are bypassed. -/
theorem course_bypass_append {o : Operand} {bypassed : List Nat} {opening : List Stage}
    (hrule : ∀ s ∈ opening, s.rule = none)
    (h : ∀ s ∈ opening, s.rank ∈ bypassed ∨ o.IsValid) (rest : List Stage) (i : Injector) :
    course o (bypass bypassed opening ++ rest) i = ((course o rest i).1, (course o rest i).2.1,
      opening.map Stage.passedNotice ++ (course o rest i).2.2) := by
  have hpass : ∀ s ∈ bypass bypassed opening, s.assess o i = (.proceed, i) := by
    intro s' hs'
    rw [bypass_eq_map] at hs'
    obtain ⟨s, hs, rfl⟩ := List.mem_map.mp hs'
    rw [Stage.assess_of_objection_eq_none (Stage.objection_bypassed (h s hs))]
    exact Stage.judge_of_rule_eq_none (hrule s hs) ..
  rw [course_append hpass, bypass_eq_map, List.map_map]
  rfl

/-- An operand that is not valid is rejected by the first stage that checks validity, and the
stages before it let it pass. -/
theorem course_of_isLeast {bypassed : List Nat} {k : Nat}
    (hk : IsLeast (checkingRanks bypassed) k) {o : Operand} (ho : ¬o.IsValid)
    (rule : Option TerminalRule) (i : Injector) :
    ∃ name subject, stageNames[k - 1]? = some (name, subject) ∧
      course o (bypass bypassed (stageTable rule)) i =
        (.rejected ⟨k, name, .validation, o.complaint subject⟩, i,
          ((stageTable rule).take (k - 1)).map Stage.passedNotice ++
            [(stageOf rule k name subject).rejectedNotice
              ⟨k, name, .validation, o.complaint subject⟩]) := by
  obtain ⟨⟨hpos, hcount, hchecks⟩, hleast⟩ := hk
  obtain ⟨name, subject, hnames, ⟨rest, htable⟩, hopening⟩ :=
    exists_stageTable_eq rule hpos hcount
  have hbypassed : ∀ s ∈ (stageTable rule).take (k - 1), s.rank ∈ bypassed := by
    intro s hs
    obtain ⟨hrank, hbelow, -⟩ := hopening s hs
    by_contra hs'
    have hle := hleast ⟨hrank, le_trans (le_of_lt hbelow) hcount, hs'⟩
    omega
  have hpermissive : (false || bypassed.contains k) = false := by simpa using hchecks
  refine ⟨name, subject, hnames, ?_⟩
  conv_lhs => rw [htable]
  rw [bypass_append, course_bypass_append (fun s hs => (hopening s hs).2.2)
    (fun s hs => Or.inl (hbypassed s hs)), bypass, List.map_cons, course,
    Stage.assess_of_not_isValid hpermissive ho]
  rfl

/-- The stages of the table all let an operand pass their check if it is valid or none makes it. -/
theorem bypassed_or_isValid {bypassed : List Nat} {o : Operand}
    (h : o.IsValid ∨ checkingRanks bypassed = ∅) {rule : Option TerminalRule} {s : Stage}
    (hs : s ∈ stageTable rule) : s.rank ∈ bypassed ∨ o.IsValid := by
  refine h.symm.imp_left fun hempty => ?_
  obtain ⟨j, hj⟩ := List.mem_iff_getElem?.mp hs
  rw [getElem?_stageTable] at hj
  obtain ⟨e, he, rfl⟩ := Option.map_eq_some_iff.mp hj
  have hlt : j < stageCount := (List.getElem?_eq_some_iff.mp he).1
  by_contra hchecks
  exact Set.eq_empty_iff_forall_notMem.mp hempty (1 + j)
    ⟨Nat.le_add_right 1 j, Nat.one_add_le_iff.mpr hlt, hchecks⟩

/-- The verdict of the last stage by what its rule has against an operand. -/
def Verdict.recommended : Option Violation → Verdict
  | none => .proceed
  | some v => .rejected ⟨9, "recommendation", v.failure, v.message⟩

/-- The recommendation never calls an operand invalid. -/
theorem recommended_ne_rejected (s : Sentinels) (o : Operand) (i : Injector) {rank : Int}
    {name message : Text} :
    Verdict.recommended (recommendationRule s (.operand o) i).1 ≠
      .rejected ⟨rank, name, .validation, message⟩ := by
  intro h
  cases o <;> simp only [recommendationRule] at h
  case bulk =>
    split_ifs at h <;> cases h
  all_goals
    cases hhit : s.hit? _ <;> rw [hhit] at h <;> cases h

theorem judge_closingStage (rule : TerminalRule) (ranks : List Nat) (o : Operand) (i : Injector) :
    ((closingStage rule).bypassed ranks).judge (.operand o) i =
      (.recommended (rule (.operand o) i).1, (rule (.operand o) i).2) := by
  simp only [Stage.judge, Stage.bypassed, closingStage]
  rcases rule (.operand o) i with ⟨_ | v, i'⟩ <;> rfl

/-- If the operand is valid or no stage checks validity, then all stages before the last one let the
operand pass, and the last one asks its rule only. -/
theorem course_of_unchecked {bypassed : List Nat} {o : Operand}
    (h : o.IsValid ∨ checkingRanks bypassed = ∅) (rule : TerminalRule) (i : Injector) :
    course o (bypass bypassed (stageTable (some rule))) i =
      (.recommended (rule (.operand o) i).1, (rule (.operand o) i).2,
        openingStages.map Stage.passedNotice ++ [match (rule (.operand o) i).1 with
          | none => (closingStage rule).passedNotice
          | some v => (closingStage rule).rejectedNotice
              ⟨9, "recommendation", v.failure, v.message⟩]) := by
  have hranks : ∀ s ∈ stageTable (some rule), s.rank ∈ bypassed ∨ o.IsValid :=
    fun s => bypassed_or_isValid h
  rw [stageTable_some] at hranks ⊢
  have hclosing := Stage.objection_bypassed
    (hranks _ (List.mem_append_right _ List.mem_cons_self))
  rw [bypass_append, course_bypass_append (fun s => rule_of_mem_openingStages)
    (fun s hs => hranks s (List.mem_append_left _ hs)), bypass_eq_map, List.map_singleton,
    course, Stage.assess_of_objection_eq_none hclosing, judge_closingStage]
  cases (rule (.operand o) i).1 <;> rfl

/-- Bypassing one stage more is seen exactly if it is the first one that checks validity : then the
verdict is another one, and otherwise the whole course is the same. -/
theorem observable_of_not_isValid (bypassed : List Nat) {o : Operand} (ho : ¬o.IsValid)
    (s : Sentinels) (k : Nat) (i : Injector) :
    let walk (ranks : List Nat) :=
      course o (bypass ranks (stageTable (some (recommendationRule s)))) i
    (IsLeast (checkingRanks bypassed) k → (walk (k :: bypassed)).1 ≠ (walk bypassed).1) ∧
      (¬IsLeast (checkingRanks bypassed) k → walk (k :: bypassed) = walk bypassed) := by
  intro walk
  refine ⟨fun hk => ?_, fun hk => ?_⟩
  · obtain ⟨name, subject, -, hwalk⟩ :=
      course_of_isLeast hk ho (some (recommendationRule s)) i
    rcases exists_isLeast_checkingRanks (k :: bypassed) with hempty | ⟨j, hj⟩
    · simp only [walk, hwalk, course_of_unchecked (Or.inr hempty)]
      exact recommended_ne_rejected s o i
    · obtain ⟨name', subject', -, hwalk'⟩ :=
        course_of_isLeast hj ho (some (recommendationRule s)) i
      have hne : j ≠ k := by
        rw [checkingRanks_cons] at hj
        exact hj.1.2
      simp only [walk, hwalk, hwalk']
      intro h
      exact hne (Int.ofNat.inj (Rejection.mk.inj (Verdict.rejected.inj h)).1)
  · rcases exists_isLeast_checkingRanks bypassed with hempty | ⟨j, hj⟩
    · have hempty' : checkingRanks (k :: bypassed) = ∅ := by
        rw [checkingRanks_cons, hempty, Set.eq_empty_iff_forall_notMem]
        exact fun l hl => hl.1
      simp only [walk, course_of_unchecked (Or.inr hempty),
        course_of_unchecked (Or.inr hempty')]
    · have hne : j ≠ k := by
        rintro rfl
        exact hk hj
      obtain ⟨name, subject, hnames, hwalk⟩ :=
        course_of_isLeast hj ho (some (recommendationRule s)) i
      obtain ⟨name', subject', hnames', hwalk'⟩ := course_of_isLeast
        (isLeast_checkingRanks_cons hj hne) ho (some (recommendationRule s)) i
      obtain ⟨rfl, rfl⟩ := Prod.mk.inj (Option.some.inj (hnames.symm.trans hnames'))
      exact hwalk'.trans hwalk.symm

/-! ## Assessors -/

namespace Assessor

/-- The stages of an assessor are those that settings describe, with some bypassed, and its
probability is theirs. -/
structure FollowsBypassed (a : Assessor) (s : AssessmentSettings) (bypassed : List Nat) :
    Prop where
  stages : a.stages = bypass bypassed (stageTable (some (recommendationRule s.sentinels)))
  probability : a.injector.probability = s.bulkFailureProbability

section

variable {a : Assessor} {s : AssessmentSettings} {bypassed : List Nat}

theorem probability_recommendationRule (s : Sentinels) (o : Operand) (i : Injector) :
    (recommendationRule s (.operand o) i).2.probability = i.probability := by
  rw [AssessmentSettings.recommendationRule_snd]
  split_ifs <;> rfl

/-- An assessment changes neither the stages nor the probability. -/
theorem FollowsBypassed.conclude (h : a.FollowsBypassed s bypassed) (clock : Clock)
    (op : Operation) (o : Operand) (t : Trail) :
    (a.conclude clock op o t).2.1.FollowsBypassed s bypassed := by
  obtain ⟨-, hconclude⟩ := a.conclude_eq clock op o t
  rw [hconclude]
  refine ⟨h.stages, Eq.trans ?_ h.probability⟩
  dsimp only
  rw [h.stages]
  by_cases hchecks : o.IsValid ∨ checkingRanks bypassed = ∅
  · rw [course_of_unchecked hchecks]
    exact probability_recommendationRule ..
  · obtain ⟨ho, hnonempty⟩ := not_or.mp hchecks
    obtain ⟨k, hk⟩ := (exists_isLeast_checkingRanks bypassed).resolve_left hnonempty
    obtain ⟨name, subject, -, hwalk⟩ :=
      course_of_isLeast hk ho (some (recommendationRule s.sentinels)) a.injector
    rw [hwalk]

theorem FollowsBypassed.call (h : a.FollowsBypassed s bypassed) (t : Trail) (c : Call) :
    (a.call t c).2.1.FollowsBypassed s bypassed := by
  unfold Assessor.call Assessor.evaluate
  cases c.operation.accept c.argument with
  | error e => exact h
  | ok o => exact h.conclude c.clock c.operation o t

theorem FollowsBypassed.afterCalls (h : a.FollowsBypassed s bypassed) (t : Trail)
    (calls : List Call) : (a.afterCalls t calls).FollowsBypassed s bypassed := by
  induction calls generalizing a t with
  | nil => exact h
  | cons c calls ih => exact ih (h.call t c) _

end

/-- What an assessor with stages bypassed answers and logs about an operand. -/
structure AnswersBypassed (s : AssessmentSettings) (bypassed : List Nat) (a : Assessor)
    (clock : Clock) (op : Operation) (o : Operand) (t : Trail) (v : Verdict) (b : Assessor)
    (t' : Trail) : Prop where
  answer : a.evaluate clock op (.operand o) t = .ok (v, b, t')
  /-- The stages before the one that rejects are logged as passed, and no other. -/
  logs : t.issueCorrelation.Logs t' (Run.events (stageNames.map Prod.fst) ⟨clock, op, o, v⟩
    (.issued (t.issued + 1)))
  invalid : ¬o.IsValid → ∀ k, IsLeast (checkingRanks bypassed) k →
    ∃ name subject, stageNames[k - 1]? = some (name, subject) ∧
      v = .rejected ⟨k, name, .validation, o.complaint subject⟩ ∧
      Run.passedCount ⟨clock, op, o, v⟩ = k - 1 ∧ b = a
  recommended : o.IsValid ∨ checkingRanks bypassed = ∅ →
    v = .recommended (recommendationRule s.sentinels (.operand o) a.injector).1 ∧
      b.injector = (recommendationRule s.sentinels (.operand o) a.injector).2 ∧
      (recommendationRule s.sentinels (.operand o) a.injector).1 = s.objection? a.nextDraw o
  /-- To bypass one stage more is seen exactly if it is the first that checks validity. -/
  observable : ¬o.IsValid → ∀ k, ∃ v' b' t'',
    evaluate ⟨bypass [k] a.stages, a.injector⟩ clock op (.operand o) t = .ok (v', b', t'') ∧
      (IsLeast (checkingRanks bypassed) k → v' ≠ v) ∧
      (¬IsLeast (checkingRanks bypassed) k → v' = v ∧ b'.injector = b.injector ∧ t'' = t')

theorem FollowsBypassed.answersBypassed {a : Assessor} {s : AssessmentSettings}
    {bypassed : List Nat} (h : a.FollowsBypassed s bypassed) (clock : Clock) {op : Operation}
    {o : Operand} (ho : op.IsAbout o) (t : Trail) :
    ∃ v b t', AnswersBypassed s bypassed a clock op o t v b t' := by
  have hevaluate (a : Assessor) :
      a.evaluate clock op (.operand o) t = .ok (a.conclude clock op o t) := by
    rw [evaluate, Operation.accept_of_isAbout ho, Except.map]
  have hranks : a.stages.map (·.rank) = expectedRanks := by
    rw [h.stages]
    exact (ofStages_eq_ok_iff.mp (ofStages_bypass bypassed _ a.injector)).1
  let after (a : Assessor) := a.conclude clock op o t
  obtain ⟨-, hconclude⟩ := a.conclude_eq clock op o t
  refine ⟨(after a).1, (after a).2.1, (after a).2.2, hevaluate a, ?logs,
    fun hinvalid k hk => ?invalid, fun hchecks => ?recommended, fun hinvalid k =>
      ⟨(after ⟨bypass [k] a.stages, a.injector⟩).1, (after _).2.1, (after _).2.2, hevaluate _,
        ?observable⟩⟩
  case logs =>
    obtain ⟨-, hlogs⟩ := logs_conclude hranks clock op o t
    rwa [h.stages, map_name_bypass] at hlogs
  case invalid =>
    obtain ⟨name, subject, hnames, hwalk⟩ :=
      course_of_isLeast hk hinvalid (some (recommendationRule s.sentinels)) a.injector
    rw [← h.stages] at hwalk
    refine ⟨name, subject, hnames, ?_⟩
    simp only [after, hconclude, hwalk]
    exact ⟨trivial, rfl, trivial⟩
  case recommended =>
    have hwalk := course_of_unchecked hchecks (recommendationRule s.sentinels) a.injector
    rw [← h.stages] at hwalk
    simp only [after, hconclude, hwalk, true_and]
    exact AssessmentSettings.recommendationRule_fst h.probability o
  case observable =>
    obtain ⟨hleast, hother⟩ := observable_of_not_isValid bypassed hinvalid
      s.sentinels k a.injector
    obtain ⟨-, hconclude'⟩ := conclude_eq ⟨bypass [k] a.stages, a.injector⟩ clock op o t
    simp only [after, hconclude, hconclude']
    rw [h.stages, bypass_bypass]
    refine ⟨hleast, fun hk => ?_⟩
    have hwalk := hother hk
    dsimp only at hwalk
    rw [hwalk]
    exact ⟨rfl, rfl, rfl⟩

/-- Any stages of an assessor that settings describe may be bypassed. After any calls, an operand
that the operation is about and that is not valid is rejected as invalid by the first stage that
still checks validity, in its name and about its subject, and exactly the stages before it are
logged as passed. If the operand is valid or no stage checks validity, the answer is that of the
recommendation. So for an operand that is not valid it is seen whether one stage more is bypassed
exactly if that is the first one that checks validity. -/
theorem evaluate_bypassed {s : AssessmentSettings} {source : RandomSource} {a : Assessor}
    (ha : ofSettings s source = .ok a) (bypassed : List Nat) :
    ∃ b, ofStages (bypass bypassed a.stages) a.injector = .ok b ∧
      ∀ (before : Trail) (calls : List Call) (clock : Clock) (op : Operation) (o : Operand)
        (t : Trail), op.IsAbout o →
        ∃ v c t', AnswersBypassed s bypassed (b.afterCalls before calls) clock op o t v c t' := by
  have hfollows := follows_ofSettings ha
  rw [hfollows.stages]
  refine ⟨_, ofStages_bypass .., fun before calls clock op o t ho => ?_⟩
  have hbypassed : FollowsBypassed ⟨bypass bypassed (stageTable (some
      (recommendationRule s.sentinels))), a.injector⟩ s bypassed := ⟨rfl, hfollows.probability⟩
  exact (hbypassed.afterCalls before calls).answersBypassed clock ho t

/-- Without the checks of the first two stages and of the sixth, the third one rejects a blank
symbol, and the run was let pass by two stages. Whether the third stage is bypassed is seen, and
whether the fourth is, is not. -/
theorem evaluate_bypassed_blank_symbol :
    let clock : Clock := ⟨⟨⟨2024, 2, 29⟩, 0, 0, 0, 0, none⟩, Double.zero⟩
    ∃ a b v c t', ofSettings {} (.cycle Double.zero []) = .ok a ∧
      ofStages (bypass [1, 2, 6] a.stages) a.injector = .ok b ∧
      Operation.IsAbout .lookupBySymbol (.symbol (some (" " : Text))) ∧
      AnswersBypassed {} [1, 2, 6] (b.afterCalls {} []) clock .lookupBySymbol
        (.symbol (some (" " : Text))) {} v c t' ∧
      v = .rejected ⟨3, "market", .validation, "invalid symbol for market analysis"⟩ ∧
      IsLeast (checkingRanks [1, 2, 6]) 3 ∧ ¬IsLeast (checkingRanks [1, 2, 6]) 4 := by
  intro clock
  obtain ⟨a, ha⟩ : ∃ a, ofSettings {} (.cycle Double.zero []) = .ok a := ⟨_, rfl⟩
  have ho : Operation.IsAbout .lookupBySymbol (.symbol (some (" " : Text))) := ⟨rfl, rfl⟩
  have hinvalid : ¬Operand.IsValid (.symbol (some (" " : Text))) := by decide
  have hleast : IsLeast (checkingRanks [1, 2, 6]) 3 := by
    refine ⟨⟨by decide, by decide, by decide⟩, fun k hk => ?_⟩
    obtain ⟨hpos, -, hchecks⟩ := hk
    by_contra hlt
    obtain rfl | rfl : k = 1 ∨ k = 2 := by omega
    · exact hchecks (by decide)
    · exact hchecks (by decide)
  obtain ⟨b, hb, hanswers⟩ := evaluate_bypassed ha [1, 2, 6]
  obtain ⟨v, c, t', h⟩ := hanswers {} [] clock .lookupBySymbol _ {} ho
  obtain ⟨name, subject, hnames, hv, -⟩ := h.invalid hinvalid 3 hleast
  obtain ⟨rfl, rfl⟩ := Prod.mk.inj (Option.some.inj hnames)
  exact ⟨a, b, v, c, t', ha, hb, ho, h, hv, hleast, fun hleast' =>
    absurd (hleast'.2 hleast.1) (by decide)⟩

end Assessor

end StockRegister
