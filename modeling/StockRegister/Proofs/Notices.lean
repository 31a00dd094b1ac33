import Mathlib.Data.List.Basic
import StockRegister.Audit.Trail

/-!
# Notices one after the other

A trail keeps the last events only, as many as its capacity (`Trail.window`). What is kept after
one event more is determined by what was kept before it, so a window may be cut anywhere
(`Trail.push_window`). `Trail.Logs` says that events were logged between two trails.

Logging a notice keeps its event, whether its line can be printed or not (`Trail.logs_note`). The
line fails if the level of the notice reaches the threshold and the printer cannot print it
(`Printer.fault?`). Notices that are logged one after the other (`Trail.noteEach`) therefore leave
the events up to the first one with a line that fails, and the reason is that of this line
(`Trail.logs_noteEach`).
-/

namespace StockRegister

/-! ## Up to the first -/

/-- The items of a list up to the first that meets a condition, or all if none does. -/
def upToFirst {α : Type} (stops : α → Bool) (xs : List α) : List α :=
  xs.take (xs.findIdx stops + 1)

section UpToFirst

variable {α : Type} (stops : α → Bool)

theorem upToFirst_cons (x : α) (xs : List α) :
    upToFirst stops (x :: xs) = x :: if stops x then [] else upToFirst stops xs := by
  cases hx : stops x with
  | true => simp [upToFirst, List.findIdx_cons, hx]
  | false => simp [upToFirst, List.findIdx_cons, hx]

variable {stops}

theorem upToFirst_append_of_exists {xs : List α} (h : ∃ x ∈ xs, stops x = true) (ys : List α) :
    upToFirst stops (xs ++ ys) = upToFirst stops xs := by
  induction xs with
  | nil => simp at h
  | cons x xs ih =>
    rw [List.cons_append, upToFirst_cons, upToFirst_cons]
    cases hx : stops x with
    | true => rfl
    | false =>
      obtain ⟨y, hy, hstops⟩ := h
      rcases List.mem_cons.mp hy with rfl | hy
      · exact absurd hstops (by simp [hx])
      · rw [ih ⟨y, hy, hstops⟩]

theorem upToFirst_append_of_forall {xs : List α} (h : ∀ x ∈ xs, stops x = false) (ys : List α) :
    upToFirst stops (xs ++ ys) = xs ++ upToFirst stops ys := by
  induction xs with
  | nil => rfl
  | cons x xs ih =>
    rw [List.cons_append, upToFirst_cons, h x List.mem_cons_self,
      ih fun y hy => h y (List.mem_cons_of_mem _ hy)]
    rfl

end UpToFirst

/-! ## Windows -/

namespace Trail

/-- The last items of a list, as many as a capacity allows; without one it is the whole list. -/
def window {α : Type} (capacity : Option Nat) (xs : List α) : List α :=
  match capacity with
  | none => xs
  | some n => lastItems n xs

theorem window_nil {α : Type} (capacity : Option Nat) : window capacity ([] : List α) = [] := by
  cases capacity with
  | none => rfl
  | some n => exact List.drop_nil

/-- An item that is added to a window makes the window of the longer list. -/
theorem push_window {α : Type} (capacity : Option Nat) (xs : List α) (x : α) :
    push capacity (window capacity xs) x = window capacity (xs ++ [x]) := by
  cases capacity with
  | none => rfl
  | some n =>
    simp only [push, window, lastItems]
    rw [← List.drop_append_of_le_length (Nat.sub_le _ _), List.drop_drop]
    congr 1
    simp only [List.length_drop, List.length_append, List.length_singleton]
    omega

/-! ## Logging -/

/-- Between two trails events were logged and no run was named : what is kept is the window of all
events, and the name of the run, the serial number and the threshold are as before. -/
structure Logs (t t' : Trail) (events : List Event) : Prop where
  events : ∀ before, t.events = window t.capacity before →
    t'.events = window t.capacity (before ++ events)
  capacity : t'.capacity = t.capacity
  current : t'.current = t.current
  issued : t'.issued = t.issued
  threshold : t'.threshold = t.threshold

theorem Logs.refl (t : Trail) : t.Logs t [] :=
  ⟨fun before h => by rw [h, List.append_nil], rfl, rfl, rfl, rfl⟩

theorem Logs.trans {t t' t'' : Trail} {events events' : List Event} (h : t.Logs t' events)
    (h' : t'.Logs t'' events') : t.Logs t'' (events ++ events') := by
  refine ⟨fun before hbefore => ?_, h'.capacity.trans h.capacity, h'.current.trans h.current,
    h'.issued.trans h.issued, h'.threshold.trans h.threshold⟩
  have hmiddle := h.events before hbefore
  rw [← h.capacity] at hmiddle
  rw [← List.append_assoc, h'.events _ hmiddle, h.capacity]

theorem logs_record (t : Trail) (e : Event) : t.Logs (t.record e) [e] := by
  refine ⟨fun before h => ?_, rfl, rfl, rfl, rfl⟩
  rw [record, h, push_window]

theorem logs_measure (t : Trail) (clock : Clock) (name : Key) (kind value tags : Value) :
    t.Logs (t.measure clock name kind value tags) [] :=
  ⟨fun before h => by rw [measure, h, List.append_nil], rfl, rfl, rfl, rfl⟩

theorem logs_print {ε : Type} (t : Trail) (p : Printer ε) (line : Option LogLine) :
    t.Logs (t.print p line).1 [] := by
  cases line with
  | none => exact .refl t
  | some l =>
    rw [print]
    cases p .method l with
    | none => exact ⟨fun before h => by rw [h, List.append_nil], rfl, rfl, rfl, rfl⟩
    | some error => exact .refl t

end Trail

/-! ## Lines that fail -/

/-- The line of an event at a level. -/
def Event.line (e : Event) (level : LogLevel) : LogLine :=
  ⟨e.type, level.lineName, e.payload, e.correlation, e.recordedAt⟩

/-- The event of a notice, with its level. -/
def Notice.leveled (n : Notice) (clock : Clock) (current : Option CorrelationId) :
    LogLevel × Event :=
  (n.level, n.event clock current)

/-- Why the line of an event fails : its level reaches the threshold, and the printer cannot print
it. -/
def Printer.fault? {ε : Type} (p : Printer ε) (threshold : Int) (e : LogLevel × Event) : Option ε :=
  if threshold ≤ e.1.severity then p .method (e.2.line e.1) else none

/-- Events up to the first one with a line that fails. -/
def Printer.kept {ε : Type} (p : Printer ε) (threshold : Int) (events : List (LogLevel × Event)) :
    List Event :=
  (upToFirst (fun e => (p.fault? threshold e).isSome) events).map Prod.snd

/-- The reason of the first line that fails. -/
def Printer.firstFault? {ε : Type} (p : Printer ε) (threshold : Int)
    (events : List (LogLevel × Event)) : Option ε :=
  events.findSome? (p.fault? threshold)

namespace Printer

variable {ε : Type} {p : Printer ε} {threshold : Int} {events : List (LogLevel × Event)}

theorem fault?_sure (threshold : Int) (e : LogLevel × Event) :
    (sure : Printer ε).fault? threshold e = none := by
  unfold fault?
  split_ifs
  · rfl
  · rfl

theorem firstFault?_eq_none_iff :
    p.firstFault? threshold events = none ↔ ∀ e ∈ events, p.fault? threshold e = none :=
  List.findSome?_eq_none_iff

theorem kept_singleton (e : LogLevel × Event) : p.kept threshold [e] = [e.2] := by
  rw [kept, upToFirst_cons]
  split_ifs <;> rfl

theorem firstFault?_singleton (e : LogLevel × Event) :
    p.firstFault? threshold [e] = p.fault? threshold e := by
  rw [firstFault?, List.findSome?_singleton]

theorem firstFault?_append (more : List (LogLevel × Event)) :
    p.firstFault? threshold (events ++ more) =
      (p.firstFault? threshold events).or (p.firstFault? threshold more) :=
  List.findSome?_append

theorem kept_append_of_eq_none (h : p.firstFault? threshold events = none)
    (more : List (LogLevel × Event)) :
    p.kept threshold (events ++ more) = events.map Prod.snd ++ p.kept threshold more := by
  rw [kept, upToFirst_append_of_forall fun e he => ?_, List.map_append, ← kept]
  rw [firstFault?_eq_none_iff.mp h e he]
  rfl

/-- If no line fails all events are kept. -/
theorem kept_of_firstFault?_eq_none (h : p.firstFault? threshold events = none) :
    p.kept threshold events = events.map Prod.snd := by
  have hkept := kept_append_of_eq_none h []
  have hnone : p.kept threshold [] = [] := rfl
  rwa [hnone, List.append_nil, List.append_nil] at hkept

/-- What comes after a line that fails is not kept. -/
theorem kept_append_of_eq_some {error : ε} (h : p.firstFault? threshold events = some error)
    (more : List (LogLevel × Event)) :
    p.kept threshold (events ++ more) = p.kept threshold events := by
  obtain ⟨e, he, hfault⟩ := List.exists_of_findSome?_eq_some h
  rw [kept, upToFirst_append_of_exists ⟨e, he, by rw [hfault]; rfl⟩, ← kept]

end Printer

/-! ## Notices -/

namespace Trail

variable {ε : Type} (p : Printer ε) (clock : Clock)

/-- The event of a notice is kept, whether its line can be printed or not. -/
theorem logs_note (t : Trail) (n : Notice) :
    t.Logs (t.note p clock n).1 [n.event clock t.current] :=
  (t.logs_record _).trans (logs_print _ p _)

theorem print_snd (t : Trail) (line : Option LogLine) :
    (t.print p line).2 = line.bind (p .method) := by
  cases line with
  | none => rfl
  | some l =>
    rw [print, Option.bind_some]
    cases p .method l <;> rfl

theorem note_snd (t : Trail) (n : Notice) :
    (t.note p clock n).2 = p.fault? t.threshold (n.leveled clock t.current) := by
  have hline : t.noticeLine clock n = if t.threshold ≤ n.level.severity then
      some ((n.event clock t.current).line n.level) else none := rfl
  rw [note, print_snd, hline, apply_ite (Option.bind · (p .method)), Option.bind_some,
    Option.bind_none]
  rfl

/-- Log notices one after the other, up to the first whose line cannot be printed. -/
def noteEach (t : Trail) : List Notice → Trail × Option ε
  | [] => (t, none)
  | n :: rest =>
    match t.note p clock n with
    | (t, none) => t.noteEach rest
    | (t, some error) => (t, some error)

/-- Notices leave the events up to the first one with a line that fails, and the reason is that of
this line. -/
theorem logs_noteEach (t : Trail) (ns : List Notice) :
    let events := ns.map (·.leveled clock t.current)
    t.Logs (t.noteEach p clock ns).1 (p.kept t.threshold events) ∧
      (t.noteEach p clock ns).2 = p.firstFault? t.threshold events := by
  induction ns generalizing t with
  | nil => exact ⟨.refl t, rfl⟩
  | cons n ns ih =>
    have hnote := t.logs_note p clock n
    have hfault := t.note_snd p clock n
    rw [noteEach]
    dsimp only
    rw [List.map_cons, Printer.kept, Printer.firstFault?, upToFirst_cons, List.findSome?_cons,
      ← hfault]
    rcases hresult : t.note p clock n with ⟨t', _ | error⟩
    · rw [hresult] at hnote
      obtain ⟨hlogs, hreason⟩ := ih t'
      rw [hnote.current, hnote.threshold] at hlogs hreason
      exact ⟨hnote.trans hlogs, hreason⟩
    · rw [hresult] at hnote
      exact ⟨hnote, rfl⟩

end Trail

end StockRegister
