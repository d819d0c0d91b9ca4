import CoupTable.Proofs.Alarms
import Mathlib.Data.List.Sort

/-!
# What becomes of an alarm

Alarms are set, taken back, and handed out as the clock moves on. Of everything that is done with
the alarms of a venue a note is taken (`Venue.useAll`), and the notes say what has become of an
alarm: it is still set, or it was taken back while it was set, or it was handed out, and always
exactly one of these. What decides is what comes first after the alarm was set, that it is taken
back or that the clock reaches its time (`AlarmNote.Spares`).

What can come of a single use is `Venue.Used`. Whatever is said about many of them is said of one
first, and then by induction of `Venue.UsedAll`.
-/

namespace CoupTable

/-- What can be done with the alarms of a venue. -/
inductive AlarmUse where
  /-- An alarm is set. -/
  | arm (delay : Nat)
  /-- An alarm is taken back, whether it is set or not. -/
  | cancel (id : AlarmId)
  /-- The clock is moved. -/
  | advance (time : Nat)
deriving DecidableEq, Repr

/-- What is noted of it. -/
inductive AlarmNote where
  /-- An alarm was set under a number, for a time. -/
  | armed (id : AlarmId) (due : Nat)
  /-- An alarm was taken back, which was set at that time or not. -/
  | cancelled (id : AlarmId) (wasSet : Bool)
  /-- The clock was moved to a time, and alarms were handed out in this order. -/
  | advanced (now : Nat) (rung : List AlarmId)
deriving DecidableEq, Repr

namespace AlarmNote

/-- The number of the alarm that was set. -/
def number? : AlarmNote → Option AlarmId
  | armed id _ => some id
  | cancelled .. | advanced .. => none

/-- Whether the alarm was taken back while it was set. -/
def cancels (id : AlarmId) : AlarmNote → Bool
  | cancelled id' wasSet => wasSet && id' == id
  | armed .. | advanced .. => false

/-- Whether the alarm was handed out. -/
def delivers (id : AlarmId) : AlarmNote → Bool
  | advanced _ rung => rung.contains id
  | armed .. | cancelled .. => false

/-- The alarm stays set: it was not taken back, and the clock has not reached its time. -/
def Spares (e : AlarmId × Nat) : AlarmNote → Prop
  | armed .. => True
  | cancelled id _ => id ≠ e.1
  | advanced now _ => now < e.2

end AlarmNote

/-- The order in which alarms are handed out: by their times, and by their numbers where they are
due together. -/
def RingsBefore (x y : AlarmId × Nat) : Prop := x.2 < y.2 ∨ x.2 = y.2 ∧ x.1 < y.1

/-- Whether no time comes up that lies beyond the end of the clock. -/
def fitsClock (now : Nat) : List AlarmUse → Bool
  | [] => true
  | .arm delay :: uses => now + delay < clockEnd && fitsClock now uses
  | .cancel _ :: uses => fitsClock now uses
  | .advance time :: uses => now + time < clockEnd && fitsClock (now + time) uses

/-! ## The order of alarms -/

namespace Alarms

variable {a : Alarms} {now : Nat}

/-- Alarms have the numbers that were given out so far, the older ones first. -/
structure Numbered (a : Alarms) : Prop where
  /-- The numbers increase. -/
  sorted : a.pending.Pairwise fun x y => x.1 < y.1
  /-- All of them were given out. -/
  old : ∀ e ∈ a.pending, e.1 < a.next

/-- Nothing is set twice under a number. -/
theorem Numbered.eq_of_mem (h : a.Numbered) {id : AlarmId} {due due' : Nat}
    (hdue : (id, due) ∈ a.pending) (hdue' : (id, due') ∈ a.pending) : due = due' := by
  have hnodup : (a.pending.map (·.1)).Nodup :=
    List.pairwise_map.2 (h.sorted.imp fun hlt => Nat.ne_of_lt hlt)
  exact congrArg Prod.snd (List.inj_on_of_nodup_map hnodup hdue hdue' rfl)

/-- The alarms that are due at a time, in the order in which they are handed out. -/
def dueBy (a : Alarms) (now : Nat) : List (AlarmId × Nat) :=
  (a.pending.filter fun e => decide (e.2 ≤ now)).mergeSort fun x y => x.2 ≤ y.2

/-- The alarms that are not due at a time. -/
def keptAt (a : Alarms) (now : Nat) : Alarms :=
  { a with now, pending := a.pending.filter fun e => !decide (e.2 ≤ now) }

/-- An alarm is set if it is so for some time. -/
theorem isPending_iff {id : AlarmId} : a.isPending id = true ↔ ∃ due, (id, due) ∈ a.pending := by
  simp [isPending]

/-- What is due is what is set for a time that has come. -/
theorem dueBy_perm (a : Alarms) (now : Nat) :
    (a.dueBy now).Perm (a.pending.filter fun e => decide (e.2 ≤ now)) :=
  List.mergeSort_perm ..

/-- Sorting alarms by their times leaves those that are due together in order of their numbers. -/
theorem pairwise_ringsBefore {l : List (AlarmId × Nat)} (h : l.Pairwise fun x y => x.1 < y.1) :
    (l.mergeSort fun x y => decide (x.2 ≤ y.2)).Pairwise RingsBefore := by
  have htrans : ∀ x y z : AlarmId × Nat, decide (x.2 ≤ y.2) = true → decide (y.2 ≤ z.2) = true →
      decide (x.2 ≤ z.2) = true := by
    intro x y z hxy hyz
    exact decide_eq_true (Nat.le_trans (of_decide_eq_true hxy) (of_decide_eq_true hyz))
  have htotal : ∀ x y : AlarmId × Nat, (decide (x.2 ≤ y.2) || decide (y.2 ≤ x.2)) = true := by
    intro x y
    simpa using Nat.le_total x.2 y.2
  induction l with
  | nil => simp
  | cons x l ih =>
    obtain ⟨hx, hl⟩ := List.pairwise_cons.1 h
    -- The first alarm comes to lie behind those that are due earlier, and before all others.
    obtain ⟨l₁, l₂, hsort, hrest, hbefore⟩ := List.mergeSort_cons htrans htotal x l
    have htimes := List.pairwise_mergeSort htrans htotal (x :: l)
    rw [hsort] at htimes ⊢
    have hlater := (List.pairwise_cons.1 (List.pairwise_append.1 htimes).2.1).1
    have hmem : ∀ y ∈ l₂, y ∈ l := fun y hy =>
      (List.mergeSort_perm l _).mem_iff.1 (hrest ▸ List.mem_append_right l₁ hy)
    have hsorted := ih hl
    rw [hrest] at hsorted
    obtain ⟨hfirst, hsecond, hacross⟩ := List.pairwise_append.1 hsorted
    refine List.pairwise_append.2 ⟨hfirst, List.pairwise_cons.2 ⟨fun y hy => ?_, hsecond⟩, ?_⟩
    · rcases Nat.lt_or_eq_of_le (of_decide_eq_true (hlater y hy)) with hlt | heq
      · exact .inl hlt
      · exact .inr ⟨heq, hx y (hmem y hy)⟩
    · intro y hy z hz
      rcases List.mem_cons.1 hz with rfl | hz
      · refine .inl (Nat.not_le.1 fun hle => ?_)
        have hnot := hbefore y hy
        rw [decide_eq_true hle] at hnot
        cases hnot
      · exact hacross y hy z hz

/-- Alarms are handed out in their order. -/
theorem Numbered.pairwise_dueBy (h : a.Numbered) (now : Nat) :
    (a.dueBy now).Pairwise RingsBefore :=
  pairwise_ringsBefore (h.sorted.filter _)

/-- No two alarms are handed out before each other. -/
theorem not_ringsBefore_of_ringsBefore {x y : AlarmId × Nat} (h : RingsBefore x y) :
    ¬ RingsBefore y x := by
  rcases h with hlt | ⟨heq, hlt⟩
  · rintro (hlt' | ⟨heq', -⟩)
    · exact Nat.lt_asymm hlt hlt'
    · exact Nat.ne_of_gt hlt heq'
  · rintro (hlt' | ⟨-, hlt'⟩)
    · exact Nat.ne_of_gt hlt' heq
    · exact Nat.lt_asymm hlt hlt'

/-- What is due at a later time is what is due earlier, and after that what has become due since. -/
theorem Numbered.dueBy_append (h : a.Numbered) {later : Nat} (hle : now ≤ later) :
    a.dueBy later = a.dueBy now ++ (a.keptAt now).dueBy later := by
  have hrest : (a.keptAt now).Numbered :=
    ⟨h.sorted.filter _, fun e he => h.old e (List.mem_of_mem_filter he)⟩
  have htimes : ∀ {n : Nat} {a : Alarms} {e : AlarmId × Nat}, e ∈ a.dueBy n →
      e ∈ a.pending ∧ e.2 ≤ n := by
    intro n a e he
    simpa using (a.dueBy_perm n).mem_iff.1 he
  have hsorted : (a.dueBy now ++ (a.keptAt now).dueBy later).Pairwise RingsBefore := by
    refine List.pairwise_append.2 ⟨h.pairwise_dueBy now, hrest.pairwise_dueBy later, ?_⟩
    intro x hx y hy
    have hkept : now < y.2 := by simpa using (List.mem_filter.1 (htimes hy).1).2
    exact .inl (Nat.lt_of_le_of_lt (htimes hx).2 hkept)
  -- Both lists hold the same alarms, and there is but one order for them.
  have hperm : (a.dueBy later).Perm (a.dueBy now ++ (a.keptAt now).dueBy later) := by
    refine (a.dueBy_perm later).trans (.trans ?_
      ((a.dueBy_perm now).append ((a.keptAt now).dueBy_perm later)).symm)
    have hsplit := List.filter_append_perm (fun e : AlarmId × Nat => decide (e.2 ≤ now))
      (a.pending.filter fun e => decide (e.2 ≤ later))
    refine hsplit.symm.trans (.of_eq ?_)
    congr 1
    · rw [List.filter_filter]
      refine List.filter_congr fun e _ => ?_
      by_cases hdue : e.2 ≤ now
      · simp [hdue, Nat.le_trans hdue hle]
      · simp [hdue]
    · simp only [keptAt, List.filter_filter, Bool.and_comm]
  exact hperm.eq_of_pairwise
    (fun x y _ _ hxy hyx => absurd hyx (not_ringsBefore_of_ringsBefore hxy))
    (h.pairwise_dueBy later) hsorted

end Alarms

/-! ## Single uses -/

namespace Venue

variable {v v' v₁ : Venue} {u : AlarmUse} {uses : List AlarmUse} {n : AlarmNote}
  {notes : List AlarmNote} {e : AlarmId × Nat} {now : Nat} {rung : List AlarmId}

/-- Does something with the alarms of a venue, and notes it. -/
def use (v : Venue) : AlarmUse → Except Fault (AlarmNote × Venue)
  | .arm delay => do
    let (id, later) ← v.arm delay
    return (.armed id (v.alarms.now + delay), later)
  | .cancel id => return (.cancelled id (v.alarms.isPending id), v.cancel id)
  | .advance time => do
    let (rung, later) ← v.advance time
    return (.advanced later.alarms.now rung, later)

/-- Does one thing after the other, and notes all of it. -/
def useAll (v : Venue) : List AlarmUse → Except Fault (List AlarmNote × Venue)
  | [] => return ([], v)
  | u :: uses => do
    let (n, next) ← v.use u
    let (notes, later) ← next.useAll uses
    return (n :: notes, later)

/-- What can come of a single use. -/
inductive Used (v : Venue) : AlarmNote → Venue → Prop where
  /-- An alarm was set, under the next number. -/
  | armed (delay : Nat) : Used v (.armed v.alarms.next (v.alarms.now + delay)) (v.arming delay)
  /-- An alarm was taken back. -/
  | cancelled (id : AlarmId) : Used v (.cancelled id (v.alarms.isPending id)) (v.cancel id)
  /-- The clock was moved, and what is due was handed out. -/
  | advanced (time : Nat) : Used v
      (.advanced (v.alarms.now + time) ((v.alarms.dueBy (v.alarms.now + time)).map (·.1)))
      { v with alarms := v.alarms.keptAt (v.alarms.now + time) }

/-- The clock moves as long as it does not end, and what is due is handed out. -/
theorem advance_eq_dueBy {time : Nat} (h : v.alarms.now + time < clockEnd) :
    v.advance time = .ok ((v.alarms.dueBy (v.alarms.now + time)).map (·.1),
      { v with alarms := v.alarms.keptAt (v.alarms.now + time) }) := by
  unfold advance Alarms.advance Alarms.after
  rw [if_pos h, ok_bind, List.partition_eq_filter_filter]
  rfl

/-- Whatever is done as long as the clock does not end can be done. -/
theorem use_eq (h : fitsClock v.alarms.now (u :: uses) = true) : ∃ n v₁,
    v.use u = .ok (n, v₁) ∧ Used v n v₁ ∧ fitsClock v₁.alarms.now uses = true := by
  cases u with
  | arm delay =>
    obtain ⟨hclock, huses⟩ := (Bool.and_eq_true _ _).mp h
    refine ⟨_, _, ?_, .armed delay, huses⟩
    rw [use, arm_eq (of_decide_eq_true hclock)]
    rfl
  | cancel id => exact ⟨_, _, rfl, .cancelled id, h⟩
  | advance time =>
    obtain ⟨hclock, huses⟩ := (Bool.and_eq_true _ _).mp h
    refine ⟨_, _, ?_, .advanced time, huses⟩
    rw [use, advance_eq_dueBy (of_decide_eq_true hclock)]
    rfl

namespace Used

/-- A number that is given out is the next one. -/
theorem next_eq (h : Used v n v') :
    (v'.alarms.next = v.alarms.next ∧ n.number? = none) ∨
      v'.alarms.next = v.alarms.next + 1 ∧ n.number? = some v.alarms.next := by
  cases h with
  | armed => exact .inr ⟨rfl, rfl⟩
  | cancelled | advanced => exact .inl ⟨rfl, rfl⟩

/-- Alarms keep their order. -/
theorem numbered (h : Used v n v') (hv : v.alarms.Numbered) : v'.alarms.Numbered := by
  obtain ⟨hsorted, hold⟩ := hv
  cases h with
  | armed delay =>
    refine ⟨List.pairwise_append.2 ⟨hsorted, List.pairwise_singleton .., ?_⟩, ?_⟩
    · intro x hx y hy
      cases List.mem_singleton.1 hy
      exact hold x hx
    · intro x hx
      rcases List.mem_append.1 hx with hx | hx
      · exact Nat.lt_succ_of_lt (hold x hx)
      · cases List.mem_singleton.1 hx
        exact Nat.lt_succ_self _
  | cancelled | advanced =>
    exact ⟨hsorted.filter _, fun x hx => hold x (List.mem_of_mem_filter hx)⟩

/-- What is set afterwards was set before and is spared, or was set just now. -/
theorem mem_pending (h : Used v n v') : e ∈ v'.alarms.pending ↔
    (e ∈ v.alarms.pending ∧ n.Spares e) ∨ n = .armed e.1 e.2 := by
  cases h with
  | armed delay =>
    obtain ⟨id, due⟩ := e
    simp [arming, AlarmNote.Spares, eq_comm]
  | cancelled id => simp [Venue.cancel, Alarms.cancel, AlarmNote.Spares, @eq_comm _ id]
  | advanced time => simp [Alarms.keptAt, AlarmNote.Spares]

/-- What is handed out is set for a time that has come. -/
theorem mem_rung (h : Used v (.advanced now rung) v') {id : AlarmId} :
    id ∈ rung ↔ ∃ due ≤ now, (id, due) ∈ v.alarms.pending := by
  cases h with
  | advanced time =>
    rw [((v.alarms.dueBy_perm _).map _).mem_iff]
    simp [and_comm]

/-- An alarm that was set before or is set now is set afterwards, or it was taken back or handed
out. -/
theorem balance (h : Used v n v') (hv : v.alarms.Numbered) (id : AlarmId) :
    (v.alarms.isPending id).toNat + [n].countP (·.number? == some id) =
      [n].countP (·.cancels id) + [n].countP (·.delivers id) + (v'.alarms.isPending id).toNat := by
  cases h with
  | armed delay =>
    have hafter : (v.arming delay).alarms.isPending id =
        (v.alarms.isPending id || v.alarms.next == id) := by
      simp [arming, Alarms.isPending]
    rw [hafter]
    by_cases hid : v.alarms.next = id
    · -- Nothing was set under the new number before.
      have hbefore : v.alarms.isPending id = false := by
        refine Bool.eq_false_iff.2 fun hset => ?_
        obtain ⟨due, hdue⟩ := Alarms.isPending_iff.1 hset
        exact Nat.ne_of_lt (hv.old _ hdue) hid.symm
      simp [hbefore, hid, AlarmNote.number?, AlarmNote.cancels, AlarmNote.delivers]
    · simp [beq_false_of_ne hid, AlarmNote.number?, AlarmNote.cancels, AlarmNote.delivers]
  | cancelled id' =>
    by_cases hid : id' = id
    · subst hid
      have hafter : (v.cancel id').alarms.isPending id' = false := by
        simp [Venue.cancel, Alarms.cancel, Alarms.isPending]
      rw [hafter]
      cases v.alarms.isPending id' <;>
        simp [AlarmNote.number?, AlarmNote.cancels, AlarmNote.delivers]
    · have hafter : (v.cancel id').alarms.isPending id = v.alarms.isPending id := by
        rw [Bool.eq_iff_iff, Alarms.isPending_iff, Alarms.isPending_iff]
        simp [Venue.cancel, Alarms.cancel, Ne.symm hid]
      simp [hafter, hid, AlarmNote.number?, AlarmNote.cancels, AlarmNote.delivers]
  | advanced time =>
    have hrung : id ∈ (v.alarms.dueBy (v.alarms.now + time)).map (·.1) ↔
        ∃ due ≤ v.alarms.now + time, (id, due) ∈ v.alarms.pending := (Used.advanced time).mem_rung
    have hafter : (v.alarms.keptAt (v.alarms.now + time)).isPending id = true ↔
        ∃ due, (id, due) ∈ (v.alarms.keptAt (v.alarms.now + time)).pending := Alarms.isPending_iff
    have hmem : ∀ due, (id, due) ∈ (v.alarms.keptAt (v.alarms.now + time)).pending ↔
        (id, due) ∈ v.alarms.pending ∧ v.alarms.now + time < due := by
      simp [Alarms.keptAt]
    have hdelivered : [AlarmNote.advanced (v.alarms.now + time)
        ((v.alarms.dueBy (v.alarms.now + time)).map (·.1))].countP (·.delivers id) =
        if id ∈ (v.alarms.dueBy (v.alarms.now + time)).map (·.1) then 1 else 0 := by
      rw [List.countP_singleton]
      simp only [AlarmNote.delivers, List.contains_iff_mem]
    rw [hdelivered, List.countP_singleton, List.countP_singleton]
    simp only [hmem] at hafter
    cases hset : v.alarms.isPending id with
    | true =>
      -- The alarm is set for one time, which has come or not.
      obtain ⟨due, hdue⟩ := Alarms.isPending_iff.1 hset
      have hone : ∀ due', (id, due') ∈ v.alarms.pending ↔ due' = due :=
        fun due' => ⟨fun hdue' => hv.eq_of_mem hdue' hdue, fun heq => heq ▸ hdue⟩
      simp only [hone, exists_eq_right, exists_eq_left] at hrung hafter
      by_cases hcome : due ≤ v.alarms.now + time
      · have hgone := Bool.eq_false_iff.2 (mt hafter.1 (Nat.not_lt.2 hcome))
        rw [if_pos (hrung.2 hcome), hgone]
        rfl
      · rw [if_neg (mt hrung.1 hcome), hafter.2 (Nat.not_le.1 hcome)]
        rfl
    | false =>
      have hnever : ∀ due, (id, due) ∉ v.alarms.pending := fun due hdue =>
        Bool.false_ne_true (hset.symm.trans (Alarms.isPending_iff.2 ⟨due, hdue⟩))
      have hgone : (v.alarms.keptAt (v.alarms.now + time)).isPending id = false :=
        Bool.eq_false_iff.2 fun h => (hafter.1 h).elim fun due hdue => hnever due hdue.1
      have hunrung : id ∉ (v.alarms.dueBy (v.alarms.now + time)).map (·.1) :=
        fun h => (hrung.1 h).elim fun due hdue => hnever due hdue.2
      rw [if_neg hunrung, hgone]
      rfl

end Used

/-! ## Many uses -/

/-- What can come of many uses. -/
inductive UsedAll : Venue → List AlarmNote → Venue → Prop where
  /-- Nothing is done. -/
  | refl (v : Venue) : UsedAll v [] v
  /-- One thing is done before the others. -/
  | cons {v v₁ v' : Venue} {n : AlarmNote} {notes : List AlarmNote} (h : Used v n v₁)
      (hlater : UsedAll v₁ notes v') : UsedAll v (n :: notes) v'

/-- Whatever is done as long as the clock does not end can be done, one after the other. -/
theorem useAll_eq (h : fitsClock v.alarms.now uses = true) :
    ∃ notes v', v.useAll uses = .ok (notes, v') ∧ UsedAll v notes v' := by
  induction uses generalizing v with
  | nil => exact ⟨_, _, rfl, .refl v⟩
  | cons u uses ih =>
    obtain ⟨n, v₁, hn, hused, hrest⟩ := use_eq h
    obtain ⟨notes, v', hnotes, hlater⟩ := ih hrest
    refine ⟨n :: notes, v', ?_, .cons hused hlater⟩
    rw [useAll, hn, ok_bind]
    dsimp only
    rw [hnotes, ok_bind]
    rfl

namespace UsedAll

/-- Whatever is done, something can be said of the venue in the middle. -/
theorem split {notes' : List AlarmNote} (h : UsedAll v (notes ++ notes') v') :
    ∃ v₁, UsedAll v notes v₁ ∧ UsedAll v₁ notes' v' := by
  induction notes generalizing v with
  | nil => exact ⟨v, .refl v, h⟩
  | cons n notes ih =>
    cases h with
    | cons hused hlater =>
      obtain ⟨v₁, hfirst, hsecond⟩ := ih hlater
      exact ⟨v₁, .cons hused hfirst, hsecond⟩

/-- Alarms keep their order. -/
theorem numbered (h : UsedAll v notes v') (hv : v.alarms.Numbered) : v'.alarms.Numbered := by
  induction h with
  | refl => exact hv
  | cons hused _ ih => exact ih (hused.numbered hv)

/-- The numbers that are given out follow upon those that were given out before. -/
theorem numbers_eq (h : UsedAll v notes v') : notes.filterMap (·.number?) =
    List.range' v.alarms.next (notes.filterMap (·.number?)).length := by
  induction h with
  | refl => rfl
  | @cons v v₁ v' n notes hused _ ih =>
    rcases hused.next_eq with ⟨hnext, hnone⟩ | ⟨hnext, hsome⟩
    · rw [hnext] at ih
      rwa [List.filterMap_cons_none hnone]
    · rw [hnext] at ih
      rw [List.filterMap_cons_some hsome, List.length_cons, List.range'_succ, ← ih]

/-- As long as an alarm with an old number is set it was set before, and was spared since. -/
theorem mem_pending (h : UsedAll v notes v') (hold : e.1 < v.alarms.next) :
    e ∈ v'.alarms.pending ↔ e ∈ v.alarms.pending ∧ ∀ n ∈ notes, n.Spares e := by
  induction h with
  | refl => simp
  | @cons v v₁ v' n notes hused _ ih =>
    have hnew : n ≠ .armed e.1 e.2 := by
      rintro rfl
      rcases hused.next_eq with ⟨-, hnone⟩ | ⟨-, hsome⟩
      · cases hnone
      · exact Nat.ne_of_lt hold (Option.some.inj hsome)
    have hold₁ : e.1 < v₁.alarms.next := by
      rcases hused.next_eq with ⟨hnext, -⟩ | ⟨hnext, -⟩
      · exact hnext ▸ hold
      · exact hnext ▸ Nat.lt_succ_of_lt hold
    rw [ih hold₁, hused.mem_pending, or_iff_left hnew, List.forall_mem_cons, and_assoc]

/-- What is set was set before, or it was noted when it was set. -/
theorem armed_of_mem (h : UsedAll v notes v') (he : e ∈ v'.alarms.pending) :
    e ∈ v.alarms.pending ∨ .armed e.1 e.2 ∈ notes := by
  induction h with
  | refl => exact .inl he
  | cons hused _ ih =>
    rcases ih he with hset | hnoted
    · rcases hused.mem_pending.1 hset with ⟨hset, -⟩ | rfl
      · exact .inl hset
      · exact .inr List.mem_cons_self
    · exact .inr (List.mem_cons_of_mem _ hnoted)

/-- Alarms are accounted for: those that were set before or are set meanwhile are set afterwards, or
were taken back or handed out. -/
theorem balance (h : UsedAll v notes v') (hv : v.alarms.Numbered) (id : AlarmId) :
    (v.alarms.isPending id).toNat + notes.countP (·.number? == some id) =
      notes.countP (·.cancels id) + notes.countP (·.delivers id)
        + (v'.alarms.isPending id).toNat := by
  induction h with
  | refl => simp
  | @cons v v₁ v' n notes hused _ ih =>
    have hstep := hused.balance hv id
    have hrest := ih (hused.numbered hv)
    rw [← List.singleton_append, List.countP_append, List.countP_append, List.countP_append]
    omega

/-- From a fresh start, an alarm that was set is still set, or it was taken back while it was set,
or it was handed out, and only one of these, only once. -/
theorem once (h : UsedAll {} notes v') {id : AlarmId} {due : Nat} (harmed : .armed id due ∈ notes) :
    notes.countP (·.cancels id) + notes.countP (·.delivers id)
      + (v'.alarms.isPending id).toNat = 1 := by
  have hnumber : id ∈ notes.filterMap (·.number?) := List.mem_filterMap.2 ⟨_, harmed, rfl⟩
  have hnodup : (notes.filterMap (·.number?)).Nodup := by
    rw [h.numbers_eq]
    exact List.nodup_range'
  have harms := List.count_eq_one_of_mem hnodup hnumber
  rw [List.count_filterMap] at harms
  rw [← h.balance ⟨.nil, by simp⟩ id, harms]
  rfl

/-- An alarm is handed out when the clock reaches its time for the first time, unless it was taken
back before. -/
theorem mem_rung_iff {before since later : List AlarmNote} {id : AlarmId} {due : Nat}
    (h : UsedAll v (before ++ .armed id due :: since ++ .advanced now rung :: later) v')
    (hv : v.alarms.Numbered) :
    id ∈ rung ↔ due ≤ now ∧ ∀ n ∈ since, n.Spares (id, due) := by
  rw [List.append_assoc] at h
  obtain ⟨v₁, hbefore, h⟩ := h.split
  have hnumbered := hbefore.numbered hv
  cases h with
  | @cons _ v₂ _ _ _ harmed h =>
    obtain ⟨v₃, hsince, h⟩ := h.split
    cases h with
    | cons hadvanced _ =>
      have hset : (id, due) ∈ v₂.alarms.pending := harmed.mem_pending.2 (.inr rfl)
      have hnumbered₂ := harmed.numbered hnumbered
      have hold : id < v₂.alarms.next := hnumbered₂.old _ hset
      have hkept : ∀ due', (id, due') ∈ v₃.alarms.pending ↔
          (id, due') ∈ v₂.alarms.pending ∧ ∀ n ∈ since, n.Spares (id, due') :=
        fun due' => hsince.mem_pending hold
      rw [hadvanced.mem_rung]
      constructor
      · rintro ⟨due', hcome, hset'⟩
        -- What is set for the number now has been set for it all along.
        obtain ⟨hset', hspares⟩ := (hkept due').1 hset'
        cases hnumbered₂.eq_of_mem hset hset'
        exact ⟨hcome, hspares⟩
      · rintro ⟨hcome, hspares⟩
        exact ⟨due, hcome, (hkept due).2 ⟨hset, hspares⟩⟩

/-- From a fresh start, alarms that were set are handed out in their order. -/
theorem rung_sorted (h : UsedAll {} notes v') (hadvanced : .advanced now rung ∈ notes) :
    ∃ alarms : List (AlarmId × Nat), rung = alarms.map (·.1) ∧
      (∀ e ∈ alarms, .armed e.1 e.2 ∈ notes) ∧ alarms.Pairwise RingsBefore := by
  obtain ⟨before, later, rfl⟩ := List.append_of_mem hadvanced
  obtain ⟨v₁, hbefore, h⟩ := h.split
  have hnumbered := hbefore.numbered ⟨.nil, by simp⟩
  cases h with
  | cons hused _ =>
    cases hused with
    | advanced time =>
      refine ⟨_, rfl, fun e he => ?_, hnumbered.pairwise_dueBy _⟩
      have hset := List.mem_of_mem_filter ((v₁.alarms.dueBy_perm _).mem_iff.1 he)
      rcases hbefore.armed_of_mem hset with hfresh | hnoted
      · cases hfresh
      · exact List.mem_append_left _ hnoted

end UsedAll

/-- To move the clock twice is to move it by as much at once. -/
theorem advance_add (hv : v.alarms.Numbered) {a b : Nat} (hend : v.alarms.now + a + b < clockEnd) :
    ∃ first mid second last, v.advance a = .ok (first, mid) ∧ mid.advance b = .ok (second, last) ∧
      v.advance (a + b) = .ok (first ++ second, last) := by
  refine ⟨_, _, _, _, advance_eq_dueBy (Nat.lt_of_le_of_lt (Nat.le_add_right _ b) hend),
    advance_eq_dueBy hend, ?_⟩
  rw [advance_eq_dueBy (Nat.add_assoc .. ▸ hend), ← Nat.add_assoc,
    hv.dueBy_append (Nat.le_add_right _ b), List.map_append]
  have hkept : (v.alarms.keptAt (v.alarms.now + a)).keptAt (v.alarms.now + a + b) =
      v.alarms.keptAt (v.alarms.now + a + b) := by
    simp only [Alarms.keptAt, List.filter_filter, Alarms.mk.injEq, true_and]
    refine List.filter_congr fun e _ => ?_
    by_cases hcome : e.2 ≤ v.alarms.now + a
    · simp [hcome, Nat.le_trans hcome (Nat.le_add_right _ b)]
    · simp [hcome]
  rw [← hkept]
  rfl

/-- An alarm that is not set cannot be taken back. -/
theorem cancel_of_not_isPending {id : AlarmId} (h : v.alarms.isPending id = false) :
    v.cancel id = v := by
  have hall : v.alarms.pending.filter (·.1 != id) = v.alarms.pending := by
    refine List.filter_eq_self.2 fun e he => ?_
    simpa using (List.any_eq_false.1 h) e he
  simp only [cancel, Alarms.cancel, hall]

/-- Whatever is done with the alarms of a new venue as long as the clock does not end: they are
numbered in the order in which they are set. An alarm that was set is set still, or was taken back
while it was set, or was handed out, and exactly one of these, once. It was handed out when the
clock first reached its time, unless it was taken back before. Alarms are handed out by their times,
and by their numbers where they are due together. To take back what is not set changes nothing, and
to move the clock twice is to move it by as much at once. -/
theorem alarms_run_their_course (uses : List AlarmUse) (hclock : fitsClock 0 uses = true) :
    ∃ notes v, ({} : Venue).useAll uses = .ok (notes, v) ∧
      notes.filterMap (·.number?) = List.range (notes.filterMap (·.number?)).length ∧
      (∀ id due, .armed id due ∈ notes → notes.countP (·.cancels id)
        + notes.countP (·.delivers id) + (v.alarms.isPending id).toNat = 1) ∧
      (∀ before id due since now rung later,
        notes = before ++ .armed id due :: since ++ .advanced now rung :: later →
        (id ∈ rung ↔ due ≤ now ∧ ∀ n ∈ since, n.Spares (id, due))) ∧
      (∀ now rung, .advanced now rung ∈ notes → ∃ alarms : List (AlarmId × Nat),
        rung = alarms.map (·.1) ∧ (∀ e ∈ alarms, .armed e.1 e.2 ∈ notes) ∧
        alarms.Pairwise RingsBefore) ∧
      (∀ id, v.alarms.isPending id = false → v.cancel id = v) ∧
      ∀ a b, v.alarms.now + a + b < clockEnd → ∃ first mid second last,
        v.advance a = .ok (first, mid) ∧ mid.advance b = .ok (second, last) ∧
        v.advance (a + b) = .ok (first ++ second, last) := by
  have hfresh : Alarms.Numbered ({} : Venue).alarms := ⟨.nil, by simp⟩
  obtain ⟨notes, v, hnotes, hused⟩ := useAll_eq (v := {}) hclock
  refine ⟨notes, v, hnotes, ?_, fun id due harmed => hused.once harmed, ?_,
    fun now rung hadvanced => hused.rung_sorted hadvanced,
    fun id hid => cancel_of_not_isPending hid, fun a b => advance_add (hused.numbered hfresh)⟩
  · rw [List.range_eq_range']
    exact hused.numbers_eq
  · rintro before id due since now rung later rfl
    exact hused.mem_rung_iff hfresh

/-- Of three alarms two are due together, and the third is taken back before it is due. -/
theorem alarms_run_their_course_three :
    fitsClock 0 [.arm 2, .arm 1, .arm 2, .cancel 1, .advance 2] = true ∧
    ∃ notes v, ({} : Venue).useAll [.arm 2, .arm 1, .arm 2, .cancel 1, .advance 2]
        = .ok (notes, v) ∧
      notes = [.armed 0 2, .armed 1 1, .armed 2 2, .cancelled 1 true, .advanced 2 [0, 2]] ∧
      notes.countP (·.cancels 1) + notes.countP (·.delivers 1)
        + (v.alarms.isPending 1).toNat = 1 := by
  refine ⟨by decide +kernel, ?_⟩
  obtain ⟨notes, v, hnotes, -, honce, -⟩ := alarms_run_their_course
    [.arm 2, .arm 1, .arm 2, .cancel 1, .advance 2] (by decide +kernel)
  have hrun : (({} : Venue).useAll [.arm 2, .arm 1, .arm 2, .cancel 1, .advance 2]).toOption.map
      (·.1) = some [.armed 0 2, .armed 1 1, .armed 2 2, .cancelled 1 true,
        .advanced 2 [0, 2]] := by
    simp [useAll, use, arm, Venue.advance, Venue.cancel, Alarms.arm, Alarms.advance, Alarms.cancel,
      Alarms.after, Alarms.isPending, clockEnd, second, Text.wordLimit, List.mergeSort,
      List.MergeSort.Internal.splitInTwo, Except.toOption]
  rw [hnotes] at hrun
  cases Option.some.inj hrun
  exact ⟨_, v, hnotes, rfl, honce 1 1 (by simp)⟩

end Venue

end CoupTable
