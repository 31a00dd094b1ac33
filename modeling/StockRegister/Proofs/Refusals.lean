import StockRegister.Proofs.Rejections
import StockRegister.Proofs.RunEvents
import StockRegister.Proofs.TrailCalls

/-!
# Arguments that are refused

An operation is about operands of one type, and about ids for one purpose. Any other argument
mismatches it (`Operation.Mismatches`), and an evaluation refuses exactly those, for the type if
that is wrong and for the purpose otherwise (`Operation.Refuses`).

The check of the argument comes first, so a call that is refused leaves the assessor and the trail
as they are, whatever prints the lines (`Assessor.callBy_of_mismatches`). Hence refused calls may be
put in anywhere among other calls (`Inserted`) : the others come to the same, and so do the assessor
and the trail (`Assessor.inserted_calls`).

Behind the check a stage may still refuse what is no operand (`Assessor.walk_bare`), and the log a
name that it keeps for itself. `Assessor.evaluateStrictly` minds both, and `evaluateStrictly_eq`
says that after the check neither happens. What may still break off an evaluation is a line that
cannot be printed. `Assessor.checksFirst` puts these together for assessors with any stages, in any
state, and for any printer, and `Assessor.built_of_long_id` is an operand whose evaluation breaks
off.
-/

namespace StockRegister

open Schema

/-! ## Mismatches -/

namespace Argument

/-- The type of operand that an argument is, if it is an operand. -/
def type? : Argument → Option OperandType
  | operand o => some o.type
  | bare _ => none

/-- The purpose of an argument that is an id. -/
def purpose? : Argument → Option IdPurpose
  | operand o => o.purpose?
  | bare _ => none

end Argument

namespace Operation

/-- An argument is not what an operation is about : it is of another type or no operand at all, or
it is an id and the operation is about ids for another purpose. -/
def Mismatches (op : Operation) (x : Argument) : Prop :=
  x.type? ≠ some op.operandShape.1 ∨
    ∃ expected, op.operandShape.2 = some expected ∧ x.purpose? ≠ some expected

/-- Why an operation refuses an argument : the type is looked at first, and only an id of the right
type is refused for its purpose. -/
inductive Refuses (op : Operation) (x : Argument) : AssessmentError → Prop
  | type : x.type? ≠ some op.operandShape.1 → Refuses op x (.wrongOperand op x.typeName)
  | purpose {expected actual : IdPurpose} : x.type? = some op.operandShape.1 →
      op.operandShape.2 = some expected → x.purpose? = some actual → actual ≠ expected →
        Refuses op x (.wrongPurpose op actual)

example : Refuses update (.operand (.entity (some 1) .delete)) (.wrongPurpose update .delete) :=
  .purpose rfl rfl rfl (by decide)

theorem Refuses.mismatches {op : Operation} {x : Argument} {e : AssessmentError}
    (h : op.Refuses x e) : op.Mismatches x := by
  cases h with
  | type htype => exact Or.inl htype
  | purpose htype hexpected hactual hne =>
    exact Or.inr ⟨_, hexpected, fun h => hne (Option.some.inj (hactual.symm.trans h))⟩

theorem refuses_of_accept_eq_error {op : Operation} {x : Argument} {e : AssessmentError}
    (h : op.accept x = .error e) : op.Refuses x e := by
  cases x with
  | bare v =>
    cases h
    exact .type (by simp [Argument.type?])
  | operand o =>
    unfold accept at h
    dsimp only at h
    split_ifs at h with htype
    · cases h
      exact .type fun heq => htype (Option.some.inj heq)
    · split at h
      · rename_i expected actual hexpected hactual
        split_ifs at h with hp
        cases h
        exact .purpose (congrArg some (not_not.mp htype)) hexpected hactual hp
      · cases h

/-- Exactly what mismatches an operation is refused. -/
theorem mismatches_iff {op : Operation} {x : Argument} :
    op.Mismatches x ↔ ∃ e, op.accept x = .error e := by
  refine ⟨fun h => ?_, fun ⟨e, he⟩ => (refuses_of_accept_eq_error he).mismatches⟩
  cases hx : op.accept x with
  | error e => exact ⟨e, rfl⟩
  | ok o =>
    obtain ⟨rfl, ho⟩ := accept_eq_ok_iff.mp hx
    rcases h with htype | ⟨expected, hexpected, hpurpose⟩
    · exact absurd (congrArg some ho.type) htype
    · exact absurd (ho.purpose.trans hexpected) hpurpose

end Operation

/-! ## Items put in -/

/-- The second list is the first one with items of a kind put in anywhere. -/
inductive Inserted {α : Type} (p : α → Prop) : List α → List α → Prop
  | nil : Inserted p [] []
  | keep {xs ys : List α} (x : α) : Inserted p xs ys → Inserted p (x :: xs) (x :: ys)
  | insert {xs ys : List α} {x : α} : p x → Inserted p xs ys → Inserted p xs (x :: ys)

/-! ## Calls -/

namespace Assessor

/-- Whether the argument of a call is not what the operation is about. -/
def Call.IsRefused (c : Call) : Prop := c.operation.Mismatches c.argument

section Calls

variable {ε : Type} {p : Printer ε} {a : Assessor}

/-- An evaluation is refused exactly if its argument is not accepted. -/
theorem evaluateBy_eq_refusal_iff {clock : Clock} {op : Operation} {x : Argument} {t : Trail}
    {e : AssessmentError} :
    (a.evaluateBy p clock op x t).1 = .error (.assessment e) ↔ op.accept x = .error e := by
  unfold evaluateBy
  cases op.accept x with
  | error e' => simp
  | ok o =>
    dsimp only
    cases (a.assess p clock op o t).1 with
    | error error => simp [Except.mapError]
    | ok v => simp [Except.mapError]

/-- A call that is refused leaves the assessor and the trail as they are. -/
theorem callBy_of_mismatches {c : Call} (hc : c.IsRefused) (t : Trail) :
    ∃ e, c.operation.Refuses c.argument e ∧ a.callBy p t c = (.error (.assessment e), a, t) := by
  obtain ⟨e, he⟩ := Operation.mismatches_iff.mp hc
  refine ⟨e, Operation.refuses_of_accept_eq_error he, ?_⟩
  rw [callBy, evaluateBy, he]

/-- Refused calls may be put in anywhere : all other calls come to the same, and the assessor and
the trail after them are the same. -/
theorem inserted_calls {calls calls' : List Call} (h : Inserted Call.IsRefused calls calls')
    (t : Trail) :
    Inserted (fun r => r.1.IsRefused ∧ ∃ e, r.2 = .error (.assessment e)) (a.answersBy p t calls)
        (a.answersBy p t calls') ∧
      a.afterBy p t calls' = a.afterBy p t calls := by
  induction h generalizing a t with
  | nil => exact ⟨.nil, rfl⟩
  | keep c _ ih =>
    obtain ⟨hanswers, hafter⟩ := ih (a := (a.callBy p t c).2.1) (a.callBy p t c).2.2
    exact ⟨.keep _ hanswers, hafter⟩
  | insert hc _ ih =>
    obtain ⟨e, -, hcall⟩ := callBy_of_mismatches (p := p) (a := a) hc t
    obtain ⟨hanswers, hafter⟩ := ih (a := a) t
    simp only [answersBy, afterBy, hcall]
    exact ⟨.insert ⟨hc, e, rfl⟩ hanswers, hafter⟩

end Calls

end Assessor

/-! ## Behind the check -/

/-- A notice in whose data no name is reserved is logged as any event is. -/
theorem Trail.log_eq_note (t : Trail) (p : Printer TrailError) (clock : Clock) {n : Notice}
    (h : reserves ["self", "event", "method_name"] n.data = false) :
    t.log p clock n = t.note p clock n := by
  simp only [reserves, List.any_cons, List.any_nil, Bool.or_false, Bool.or_eq_false_iff] at h
  obtain ⟨hself, hevent, hname⟩ := h
  let e := n.event clock t.current
  have hkeys : reserves ["self", "event"] e.payload = false := by
    simp only [reserves, List.any_cons, List.any_nil, Bool.or_false, Bool.or_eq_false_iff]
    exact ⟨e.payload_lacks (by decide) (by decide) hself,
      e.payload_lacks (by decide) (by decide) hevent⟩
  have hmethod : Fields.has e.payload "method_name" = false :=
    e.payload_lacks (by decide) (by decide) hname
  have hsubmit : (t.record e).submit clock (.line n.level) (.text n.type) e.payload =
      (t.record e).payloadLine clock n.level (.text n.type) e.payload := by
    simp only [submit, hkeys]
    rfl
  have hline : (t.record e).lineAt clock n.level (.text n.type) e.payload =
      t.noticeLine clock n := rfl
  have hlog {d : Delivery}
      (hd : (t.record e).payloadLine clock n.level (.text n.type) e.payload = .ok d) :
      t.log p clock n = (t.record e).deliver p d := by
    have hdelivery := hsubmit.trans hd
    simp only [e, Notice.event] at hdelivery ⊢
    simp only [log, logBy, Except.bind, hdelivery]
  cases hnotice : t.noticeLine clock n with
  | none =>
    rw [note, hnotice]
    exact hlog (by rw [payloadLine, hline, hnotice])
  | some l =>
    rw [note, hnotice]
    exact hlog (by rw [payloadLine, hline, hnotice, hmethod]; rfl)

namespace Assessor

section Strictly

variable (p : Printer TrailError) (clock : Clock)

/-- Take an argument as it is through stages, each of which may refuse it. -/
def walk (x : Argument) : List Stage → Injector → Trail →
    Except (Breakdown TrailError) Verdict × Injector × Trail
  | [], i, t => (.ok .proceed, i, t)
  | s :: rest, i, t =>
    match s.run x i with
    | .error e => (.error (.assessment e), i, t)
    | .ok (.rejected r, i) =>
      match t.log p clock (s.rejectedNotice r) with
      | (t, none) => (.ok (.rejected r), i, t)
      | (t, some error) => (.error (.log error), i, t)
    | .ok (.proceed, i) =>
      match t.log p clock s.passedNotice with
      | (t, none) => walk x rest i t
      | (t, some error) => (.error (.log error), i, t)

/-- No stage refuses an operand. -/
theorem walk_operand (o : Operand) (stages : List Stage) (i : Injector) (t : Trail) :
    let result := runStages p clock o stages i t
    walk p clock (.operand o) stages i t = (result.1.mapError .log, result.2.1, result.2.2) := by
  induction stages generalizing i t with
  | nil => rfl
  | cons s stages ih =>
    have hpassed := t.log_eq_note p clock (n := s.passedNotice) rfl
    have hrejected (r : Rejection) := t.log_eq_note p clock (n := s.rejectedNotice r) rfl
    simp only [walk, runStages, Stage.run, hpassed, hrejected]
    rcases s.assess o i with ⟨_ | r, i'⟩
    · dsimp only
      rcases t.note p clock s.passedNotice with ⟨t', _ | error⟩
      · exact ih i' t'
      · rfl
    · dsimp only
      rcases t.note p clock (s.rejectedNotice r) with ⟨t', _ | error⟩ <;> rfl

/-- The first stage that checks validity refuses what is no operand. -/
theorem walk_bare (v : Value) {s : Stage} (hs : s.permissive = false) (rest : List Stage)
    (i : Injector) (t : Trail) :
    (walk p clock (.bare v) (s :: rest) i t).1 =
      .error (.assessment (.unsupportedOperand v.typeName)) := by
  simp [walk, Stage.run, hs]

/-- An evaluation that minds all that may be refused behind the check of the argument : each stage
is given the argument as it is, and each notice is logged as an event from outside is. -/
def evaluateStrictly (a : Assessor) (op : Operation) (x : Argument) (t : Trail) :
    Except (Breakdown TrailError) Verdict × Assessor × Trail :=
  match op.accept x with
  | .error e => (.error (.assessment e), a, t)
  | .ok o =>
    match t.issueCorrelation.logStart p clock (.text op.name) (.object o.describe) with
    | (t, some error) => (.error (.log error), a, t)
    | (t, none) =>
      match walk p clock x a.stages a.injector t with
      | (.error error, injector, t) => (.error error, { a with injector := injector }, t)
      | (.ok verdict, injector, t) =>
        match (measureRun clock op verdict t).log p clock (op.endNotice clock verdict) with
        | (t, some error) => (.error (.log error), { a with injector := injector }, t)
        | (t, none) => (.ok verdict, { a with injector := injector }, t)

/-- Behind the check of the argument only a line that is not printed breaks off an evaluation. -/
theorem evaluateStrictly_eq (a : Assessor) (op : Operation) (x : Argument) (t : Trail) :
    a.evaluateStrictly p clock op x t = a.evaluateBy p clock op x t := by
  unfold evaluateStrictly evaluateBy
  cases hx : op.accept x with
  | error e => rfl
  | ok o =>
    obtain ⟨rfl, -⟩ := Operation.accept_eq_ok_iff.mp hx
    have hstart : t.issueCorrelation.logStart p clock (.text op.name) (.object o.describe) =
        t.issueCorrelation.note p clock (op.startNotice o) :=
      t.issueCorrelation.log_eq_note p clock (by cases o <;> rfl)
    have hend (v : Verdict) (t : Trail) :
        (measureRun clock op v t).log p clock (op.endNotice clock v) = recordRun p clock op v t :=
      Trail.log_eq_note _ p clock rfl
    simp only [hstart, walk_operand, assess, hend]
    rcases t.issueCorrelation.note p clock (op.startNotice o) with ⟨t₁, _ | error⟩
    · dsimp only
      rcases runStages p clock o a.stages a.injector t₁ with ⟨error | v, i, t₂⟩
      · rfl
      · dsimp only [Except.mapError]
        rcases recordRun p clock op v t₂ with ⟨t₃, _ | error⟩ <;> rfl
    · rfl

end Strictly

/-- What an assessor makes of the arguments of operations, with a printer. -/
structure ChecksFirst (p : Printer TrailError) (a : Assessor) : Prop where
  refuses : ∀ clock op x t,
    (∃ e, (a.evaluateBy p clock op x t).1 = .error (.assessment e)) ↔ op.Mismatches x
  reason : ∀ clock op x t e,
    (a.evaluateBy p clock op x t).1 = .error (.assessment e) → op.Refuses x e
  /-- Behind the check nothing is refused, neither by a stage nor by the log. -/
  only : ∀ clock op x t, a.evaluateStrictly p clock op x t = a.evaluateBy p clock op x t
  leaves : ∀ c t, Call.IsRefused c → ∃ e, a.callBy p t c = (.error (.assessment e), a, t)
  inserted : ∀ calls calls' t, Inserted Call.IsRefused calls calls' →
    Inserted (fun r => r.1.IsRefused ∧ ∃ e, r.2 = .error (.assessment e)) (a.answersBy p t calls)
        (a.answersBy p t calls') ∧
      a.afterBy p t calls' = a.afterBy p t calls
  /-- An operand made for the operation has a verdict, unless a line that reaches the threshold is
  not printed : then the reason of the first one breaks off the evaluation. -/
  built : ∀ clock op v o t, Operand.ofValue op v = .ok o →
    let events := (a.notices clock op o).map (·.leveled clock (some (.issued (t.issued + 1))))
    (a.evaluateStrictly p clock op (.operand o) t).1 =
      ((course o a.stages a.injector).1.orReason (p.firstFault? t.threshold events)).mapError .log

/-- Every assessor, with any stages and in any state, refuses exactly the arguments that mismatch
the operation, before it does anything. So refused calls that are put in among others are seen in
neither answers, draws nor the trail. Operands made for the operation are never refused, and only a
line that is not printed breaks off their evaluation. -/
theorem checksFirst (p : Printer TrailError) (a : Assessor) : a.ChecksFirst p := by
  have hrefuses (clock : Clock) (op : Operation) (x : Argument) (t : Trail) :
      (∃ e, (a.evaluateBy p clock op x t).1 = .error (.assessment e)) ↔ op.Mismatches x := by
    rw [Operation.mismatches_iff]
    exact exists_congr fun e => evaluateBy_eq_refusal_iff
  refine ⟨hrefuses, fun clock op x t e he => ?_, fun clock => a.evaluateStrictly_eq p clock,
    fun c t hc => ?_, fun calls calls' t h => inserted_calls h t, fun clock op v o t ho => ?_⟩
  · exact Operation.refuses_of_accept_eq_error (evaluateBy_eq_refusal_iff.mp he)
  · obtain ⟨e, -, hcall⟩ := callBy_of_mismatches (p := p) (a := a) hc t
    exact ⟨e, hcall⟩
  · have haccept := Operation.accept_of_isAbout (Operand.isAbout_of_ofValue ho)
    obtain ⟨hanswer, -⟩ := logs_assess p a clock op o t
    rw [evaluateStrictly_eq, evaluateBy, haccept]
    exact congrArg (·.mapError Breakdown.log) hanswer

/-- An id of 5001 digits is made into an operand, and its evaluation breaks off when the line of its
start is put into JSON. -/
theorem built_of_long_id :
    let clock : Clock := ⟨⟨⟨2024, 2, 29⟩, 0, 0, 0, 0, none⟩, Double.zero⟩
    let a : Assessor := ⟨stageTable (some (recommendationRule {})),
      ⟨.null, Double.zero, .cycle Double.zero [], 0⟩⟩
    let o : Operand := .entity (some (Nat.pow 10 5000)) .lookup
    Operand.ofValue .lookupById (.int (Nat.pow 10 5000)) = .ok o ∧
      (a.evaluateStrictly LineFormat.json.printer clock .lookupById (.operand o) {}).1 =
        .error (.log .unwritableInteger) := by
  intro clock a o
  have hbuilt : Operand.ofValue .lookupById (.int (Nat.pow 10 5000)) = .ok o := by rfl
  refine ⟨hbuilt, ?_⟩
  have hfault : LineFormat.json.printer.firstFault? 20
      ((a.notices clock .lookupById o).map (·.leveled clock (some (.issued 1)))) =
        some .unwritableInteger := by decide +kernel
  obtain ⟨hanswer, -⟩ := logs_assess LineFormat.json.printer a clock .lookupById o {}
  have hthreshold : ({} : Trail).threshold = 20 := rfl
  have hserial : ({} : Trail).issued + 1 = 1 := rfl
  rw [hthreshold, hserial, hfault] at hanswer
  have haccept : Operation.accept .lookupById (.operand o) = .ok o := rfl
  rw [evaluateStrictly_eq, evaluateBy, haccept]
  dsimp only
  rw [hanswer]
  rfl

end Assessor

end StockRegister
