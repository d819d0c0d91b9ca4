import CoupTable.Proofs.Clocks

/-!
# Accepting a claim

While a claim waits, a press that accepts it adds a seat to those who have accepted, and does
nothing else until everybody has accepted who could oppose the claim. The press that makes them
complete carries the claim out, and whoever accepts after that is ignored, so that some acceptances
lead to the same game in whatever order they come. The alarm of the claim leads there as well, up to
the clock.
-/

namespace CoupTable

namespace SeatSet

/-- Seats come into a set in any order. -/
theorem insert_comm (s : SeatSet) (a b : Nat) : (s.insert a).insert b = (s.insert b).insert a := by
  simp only [insert, Nat.or_assoc, Nat.or_comm (1 <<< a)]

/-- Which seats are in a set once some more have come in. -/
theorem contains_foldl_insert (s : SeatSet) (seats : List Nat) (seat : Nat) :
    (seats.foldl insert s).contains seat = true ↔ s.contains seat = true ∨ seat ∈ seats := by
  induction seats generalizing s with
  | nil => simp
  | cons a seats ih =>
    rw [List.foldl_cons, ih, contains_insert, Bool.or_eq_true, decide_eq_true_eq, List.mem_cons,
      or_assoc, @eq_comm _ a]

end SeatSet

/-- Who accepts by an input, if anybody does. -/
def Input.acceptor? : Input → Option Nat
  | .press seat data => if Move.parse? data = some .accept then some seat else none
  | .expire _ | .advance _ => none

/-- The claim once some more players have accepted it. -/
def Claim.acceptedBy (c : Claim) (seats : List Nat) : Claim :=
  { c with accepted := seats.foldl SeatSet.insert c.accepted }

namespace Game

variable {g g' y : Game} {c : Claim} {below : List Frame} {i : Input} {inputs inputs' : List Input}
  {seat : Nat} {data : String} {id : AlarmId}

/-- The seats at the table that accept by some inputs, in their order. -/
def acceptors (g : Game) (inputs : List Input) : List Nat :=
  (inputs.filterMap (·.acceptor?)).filter (· < g.players.length)

/-- Those who accept by some inputs and then by others do so in turn. -/
@[simp] theorem acceptors_append (xs ys : List Input) :
    g.acceptors (xs ++ ys) = g.acceptors xs ++ g.acceptors ys := by
  rw [acceptors, List.filterMap_append, List.filter_append]
  rfl

/-- A press from the table that accepts counts. -/
theorem acceptors_press (hdata : Move.parse? data = some .accept)
    (hseat : seat < g.players.length) :
    g.acceptors [.press seat data] = [seat] := by
  simp [acceptors, Input.acceptor?, hdata, hseat]

/-- A press that does not accept, or comes from beyond the table, does not count. -/
theorem acceptors_press_of_not
    (h : ¬ (Move.parse? data = some .accept ∧ seat < g.players.length)) :
    g.acceptors [.press seat data] = [] := by
  by_cases hdata : Move.parse? data = some .accept
  · have hseat : ¬ seat < g.players.length := fun hseat => h ⟨hdata, hseat⟩
    simp [acceptors, Input.acceptor?, hdata, Nat.not_lt.1 hseat]
  · simp [acceptors, Input.acceptor?, hdata]

/-- A claim is accepted by some players and then by others. -/
theorem acceptedBy_append (xs ys : List Nat) :
    c.acceptedBy (xs ++ ys) = (c.acceptedBy xs).acceptedBy ys := by
  unfold Claim.acceptedBy
  rw [List.foldl_append]

/-- An input by which somebody accepts is a press. -/
theorem eq_press_of_acceptor? (h : i.acceptor? = some seat) :
    ∃ data, i = .press seat data ∧ Move.parse? data = some .accept := by
  cases i with
  | press other data =>
    change (if Move.parse? data = some .accept then some other else none) = some seat at h
    split at h
    next hdata =>
      cases h
      exact ⟨data, rfl, hdata⟩
    next => cases h
  | expire | advance => cases h

/-- A claim is accepted as soon as those have accepted who could oppose it. -/
theorem isAccepted_acceptedBy (seats : List Nat) : g.isAccepted (c.acceptedBy seats) = true ↔
    ∀ seat ∈ g.quorum c, c.accepted.contains seat = true ∨ seat ∈ seats := by
  have hquorum : g.quorum (c.acceptedBy seats) = g.quorum c := rfl
  rw [isAccepted, hquorum, List.all_eq_true]
  exact forall₂_congr fun seat _ => SeatSet.contains_foldl_insert ..

/-! ## Single presses -/

/-- A press from beyond the table is ignored. -/
theorem press_eq_of_le (hseat : g.players.length ≤ seat) (data : String) :
    g.press seat data = .ok g := by
  unfold press
  rw [if_neg]
  rw [Bool.and_eq_true, decide_eq_true_eq]
  exact fun h => Nat.not_lt.2 hseat h.1

/-- A claim goes through alike whoever has accepted it. -/
theorem resolve_acceptedBy (hf : g.stack.frames = .claim c :: below) (seats : List Nat) :
    resolve { g with stack := ⟨.claim (c.acceptedBy seats) :: below⟩ } (c.acceptedBy seats)
      = g.resolve c := by
  rw [resolve_eq_grant hf, @resolve_eq_grant _ _ below rfl]
  rfl

/-- A press that accepts the claim on top carries it out, if nobody else has to accept, and else
only adds a seat to those who have accepted. -/
theorem AtRest.press_accept (h : g.AtRest) (hf : g.stack.frames = .claim c :: below)
    (hdata : Move.parse? data = some .accept) (hseat : seat < g.players.length) :
    g.press seat data =
      if g.isAccepted (c.acceptedBy [seat]) then g.resolve c >>= settle
      else .ok { g with stack := ⟨.claim (c.acceptedBy [seat]) :: below⟩ } := by
  have hopen : (decide (seat < g.players.length) && !g.isOver) = true := by
    rw [h.isOver_eq_false hf nofun, decide_eq_true hseat]
    rfl
  have htop : g.stack.top? = some (.claim c) := by
    rw [Stack.top?, hf]
    rfl
  have hdispatch : g.dispatch seat .accept =
      if g.isAccepted (c.acceptedBy [seat]) then g.resolve c
      else .ok { g with stack := ⟨.claim (c.acceptedBy [seat]) :: below⟩ } := by
    -- The claim notes the seat before it goes through, which makes no difference then.
    rw [← resolve_acceptedBy hf [seat]]
    unfold dispatch
    rw [htop]
    change g.acceptInput c seat = _
    change (if g.isAccepted (c.acceptedBy [seat]) then
      (g.setTop (.claim (c.acceptedBy [seat]))).resolve (c.acceptedBy [seat])
      else .ok (g.setTop (.claim (c.acceptedBy [seat])))) = _
    rw [setTop_eq hf]
  unfold press
  rw [if_pos hopen, hdata]
  dsimp only
  rw [hdispatch]
  split
  · rfl
  · exact settle_eq (g := { g with stack := _ }) h.still

/-- Where there is no claim nobody's acceptance is heard. -/
theorem AtRest.feed_acceptance (h : g.AtRest) (hclaim : g.claim? = none)
    (hi : i.acceptor? = some seat) : g.feed i = .ok g := by
  obtain ⟨data, rfl, hdata⟩ := eq_press_of_acceptor? hi
  obtain ⟨hstay, -⟩ | ⟨m, g', hparse, -, -, hstep, -⟩ := press_outcome h seat data
  · exact hstay
  · cases hdata.symm.trans hparse
    cases hstep with
    | accept hf | acceptLast hf => exact absurd hf (h.top_ne_claim hclaim)
    | claim _ _ _ hm => cases hm
    | askTarget _ hm => cases hm

/-! ## Several presses -/

/-- Where there is no claim acceptances are ignored. -/
theorem AtRest.feedAll_acceptances (h : g.AtRest) (hclaim : g.claim? = none)
    (hinputs : ∀ i ∈ inputs, i.acceptor? ≠ none) : g.feedAll inputs = .ok g := by
  induction inputs with
  | nil => rfl
  | cons i inputs ih =>
    obtain ⟨seat, hi⟩ := Option.ne_none_iff_exists'.1 (hinputs i List.mem_cons_self)
    rw [feedAll_cons, h.feed_acceptance hclaim hi, ok_bind]
    exact ih fun j hj => hinputs j (List.mem_cons_of_mem _ hj)

/-- What comes of some acceptances while a claim waits: if everybody has accepted then who could
oppose it, the claim went through, and else only those are noted who have accepted. -/
theorem AtRest.feedAll_eq (h : g.AtRest) (hf : g.stack.frames = .claim c :: below)
    (hgranted : (g.resolve c >>= settle) = .ok y) (hrest : y.AtRest) (hclaim : y.claim? = none)
    (hinputs : ∀ i ∈ inputs, i.acceptor? ≠ none) :
    g.feedAll inputs = .ok (
      if g.isAccepted (c.acceptedBy (g.acceptors inputs)) then y
      else { g with stack := ⟨.claim (c.acceptedBy (g.acceptors inputs)) :: below⟩ }) := by
  induction inputs generalizing g c with
  | nil =>
    have hwaits : g.isAccepted (c.acceptedBy (g.acceptors [])) = false := (h.waiting _ _ hf).2
    rw [feedAll_nil, hwaits, if_neg Bool.false_ne_true]
    change _ = Except.ok { g with stack := ⟨.claim c :: below⟩ }
    rw [← hf]
  | cons i inputs ih =>
    obtain ⟨seat, hi⟩ := Option.ne_none_iff_exists'.1 (hinputs i List.mem_cons_self)
    have hinputs' : ∀ j ∈ inputs, j.acceptor? ≠ none := fun j hj =>
      hinputs j (List.mem_cons_of_mem _ hj)
    obtain ⟨data, rfl, hdata⟩ := eq_press_of_acceptor? hi
    rw [feedAll_cons, ← List.singleton_append, acceptors_append]
    change (g.press seat data >>= _) = _
    by_cases hseat : seat < g.players.length
    · rw [acceptors_press hdata hseat, List.singleton_append, h.press_accept hf hdata hseat]
      cases ha : g.isAccepted (c.acceptedBy [seat]) with
      | true =>
        -- The claim goes through with this press, and the others are ignored.
        have hall : g.isAccepted (c.acceptedBy (seat :: g.acceptors inputs)) = true := by
          rw [isAccepted_acceptedBy] at ha ⊢
          intro other hother
          refine (ha other hother).imp_right fun hmem => ?_
          rw [List.mem_singleton.1 hmem]
          exact List.mem_cons_self
        rw [if_pos rfl, hgranted, ok_bind, hall, if_pos rfl]
        exact hrest.feedAll_acceptances hclaim hinputs'
      | false =>
        rw [if_neg Bool.false_ne_true, ok_bind]
        have hnext : AtRest { g with stack := ⟨.claim (c.acceptedBy [seat]) :: below⟩ } := by
          refine h.feed (i := .press seat data) ?_
          change g.press seat data = _
          rw [h.press_accept hf hdata hseat, ha, if_neg Bool.false_ne_true]
        exact ih hnext rfl ((congrArg (· >>= settle) (resolve_acceptedBy hf [seat])).trans hgranted)
          hinputs'
    · rw [acceptors_press_of_not fun haccept => hseat haccept.2, List.nil_append,
        press_eq_of_le (Nat.not_lt.1 hseat), ok_bind]
      exact ih h hf hgranted hinputs'

/-- The same players accept in whatever order the inputs come. -/
theorem acceptedBy_perm (hperm : inputs.Perm inputs') :
    c.acceptedBy (g.acceptors inputs') = c.acceptedBy (g.acceptors inputs) := by
  have hacceptors : (g.acceptors inputs).Perm (g.acceptors inputs') :=
    (hperm.filterMap _).filter _
  unfold Claim.acceptedBy
  rw [hacceptors.foldl_eq' fun a _ b _ s => s.insert_comm a b]

/-! ## The alarm -/

/-- The alarm of the claim on top carries it out. -/
theorem AtRest.expire_alarm (h : g.AtRest) (hf : g.stack.frames = .claim c :: below)
    (hid : c.alarm = some id) :
    g.expire id = resolve (g.setTop (.claim { c with alarm := none })) { c with alarm := none }
      >>= settle := by
  have hover := h.isOver_eq_false hf nofun
  have hnone : g.overAlarm = none := by
    by_contra hsome
    cases hover.symm.trans (h.overAlarm hsome)
  unfold expire Stack.top?
  rw [hnone, if_neg nofun, hf]
  simp only [List.head?_cons, hid, if_true]

end Game

end CoupTable
