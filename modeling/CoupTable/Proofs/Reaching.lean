import CoupTable.Proofs.Running

/-!
# Reachable games are at rest

A new table is at rest, whether its variant is settled or still open, and with `feed_rests` so is
every game that it comes to. `Reachable.atRest` is what every statement about reachable games is
proved from.
-/

namespace CoupTable

namespace Game

variable {g g' : Game} {names : List String} {s : Settings} {entropy : Pcg}

/-! ## New tables -/

/-- The first seat is one at the table, whether it is drawn or named. -/
theorem firstSeat_lt {count : Nat} {start : Option Nat} (hcount : 0 < count)
    (hstart : ∀ seat, start = some seat → seat < count) (rng : Pcg) :
    (firstSeat count rng start).1 < count := by
  cases start with
  | some seat => exact hstart seat rfl
  | none =>
    unfold firstSeat
    exact rng.below_lt hcount

/-- The players of a new table hold no cards and the coins to start with. -/
theorem mem_newPlayers {p : Player} (hp : p ∈ newPlayers names) :
    p.cards = [] ∧ p.coins = startCoins := by
  obtain ⟨⟨name, seat⟩, -, rfl⟩ := List.mem_map.1 hp
  exact ⟨rfl, rfl⟩

/-- A table that is not refused has two to six seats, and nobody starts who does not sit there. -/
theorem count_of_refusal?_eq_none (h : refusal? names s = none) :
    minPlayers ≤ names.length ∧ names.length ≤ maxPlayers ∧
      ∀ seat, s.startPlayer = some seat → seat < names.length := by
  unfold refusal? at h
  split at h
  next => cases h
  next hcount =>
    simp only [Bool.or_eq_true, decide_eq_true_eq, not_or, Nat.not_lt] at hcount
    refine ⟨hcount.1, hcount.2, fun seat hseat => ?_⟩
    split at h
    next => cases h
    next => cases h
    next hnone =>
      rw [hseat] at hnone
      simpa using hnone

/-- A new table, with the variant open. -/
def opened (names : List String) (s : Settings) (entropy : Pcg) : Game :=
  { newTable names s entropy with stack := ⟨[.variantChoice, .turn]⟩ }

/-- A new table with the variant open is sound. -/
theorem sound_opened (h : refusal? names s = none) : (opened names s entropy).Sound := by
  obtain ⟨hfew, hseats, hstart⟩ := count_of_refusal?_eq_none h
  have hlen : (newPlayers names).length = names.length := by simp [newPlayers]
  have hpos : 0 < names.length := Nat.lt_of_lt_of_le (by decide) hfew
  exact {
    few := hlen.symm ▸ hfew
    seats := hlen.symm ▸ hseats
    current := hlen.symm ▸ firstSeat_lt hpos hstart _
    shape := .variantChoice rfl
    hands := fun hv => absurd rfl hv
    pool := nofun
    undealt := fun _ => ⟨rfl, fun p => mem_newPlayers⟩
    ended := nofun
    overAlarm := fun h => absurd rfl h }

/-- What a new table comes to, before anything comes in. -/
inductive Begun (names : List String) (s : Settings) (entropy : Pcg) : Game → Prop where
  /-- The table is asked for the variant. -/
  | asking {ms : List Message} : Begun names s entropy ((opened names s entropy).said ms)
  /-- The cards are dealt, and the first turn begins. -/
  | dealt {v : Variant} {built : Deck × Pcg} {ms : List Message}
      (hperm : built.1.cards.Perm (Deck.full v.cast)) :
    Begun names s entropy { (opened names s entropy).dealt v built with
      venue := Venue.saying {} ms, stack := ⟨[.turn]⟩ }

/-- A table that is not refused begins without a fault. -/
theorem begin_eq (h : refusal? names s = none) :
    ∃ g, (newTable names s entropy).begin s.variant = .ok g ∧ Begun names s entropy g := by
  have hempty : (newTable names s entropy).stack.frames.length < Stack.maxDepth := by
    change 0 < Stack.maxDepth
    decide
  have hpush : (newTable names s entropy).push .turn
      = .ok { newTable names s entropy with stack := ⟨[.turn]⟩ } :=
    push_eq hempty _
  unfold begin
  rw [hpush, ok_bind]
  cases s.variant with
  | none =>
    dsimp only
    -- The table is asked for the variant, and waits.
    rw [push_eq (by change 1 < Stack.maxDepth; decide), ok_bind]
    unfold askVariant
    rw [broadcast_eq]
    exact ⟨_, rfl, .asking⟩
  | some v =>
    dsimp only
    -- The cards are dealt at once, and the first turn begins.
    obtain ⟨ms, hdeal⟩ := (sound_opened h).deal_eq rfl v [.turn] []
    exact ⟨_, hdeal, .dealt (Deck.build_perm ..)⟩

/-- A table that has begun is at rest, at the beginning of a turn or with the variant to be chosen.
-/
theorem Begun.rests (hbegun : Begun names s entropy g) (h : refusal? names s = none) :
    g.AtRest ∧ (g.stack.frames = [.turn] ∨ g.stack.frames = [.variantChoice, .turn]) := by
  have hopened : (opened names s entropy).Sound := sound_opened h
  cases hbegun with
  | asking =>
    refine ⟨{ hopened with shape := ?_, still := rfl, waiting := ?_ }, .inr rfl⟩
    · exact .variantChoice rfl
    · exact Waits.waiting (f := .variantChoice) trivial rfl
  | @dealt v _ _ hperm =>
    refine ⟨{ hopened.dealt rfl hperm with still := rfl, waiting := ?_ }, .inl rfl⟩
    exact Waits.waiting (f := .turn) (isAlive_dealt (v := v)
      (hperm.length_eq.trans (Deck.length_full _)) hopened.seats hopened.current) rfl

/-- Whether a game starts is decided by what may be refused. -/
theorem start_eq (names : List String) (s : Settings) (entropy : Pcg) :
    (∃ reason, refusal? names s = some reason ∧ start names s entropy = .error reason) ∨
      refusal? names s = none ∧ ∃ g, start names s entropy = .ok g ∧ Begun names s entropy g := by
  unfold start
  cases h : refusal? names s with
  | some reason => exact .inl ⟨reason, rfl, rfl⟩
  | none =>
    obtain ⟨g, hbegin, hbegun⟩ := begin_eq h
    refine .inr ⟨rfl, g, ?_, hbegun⟩
    dsimp only
    rw [hbegin]
    rfl

/-- A new game is a table that is not refused and has begun. -/
theorem begun_of_start (h : start names s entropy = .ok g) :
    refusal? names s = none ∧ Begun names s entropy g := by
  obtain ⟨reason, -, hstart⟩ | ⟨hrefusal, g', hstart, hbegun⟩ := start_eq names s entropy
  · cases hstart.symm.trans h
  · cases hstart.symm.trans h
    exact ⟨hrefusal, hbegun⟩

/-- A new game is what a new table begins with. -/
theorem begin_of_start (h : start names s entropy = .ok g) :
    (newTable names s entropy).begin s.variant = .ok g := by
  have hrefusal := (begun_of_start h).1
  obtain ⟨x, hbegin, -⟩ := begin_eq hrefusal
  unfold start at h
  rw [hrefusal, hbegin] at h
  cases h
  exact hbegin

/-- A new game is at rest, at the beginning of a turn or with the variant to be chosen. -/
theorem rests_of_start (h : start names s entropy = .ok g) :
    g.AtRest ∧ (g.stack.frames = [.turn] ∨ g.stack.frames = [.variantChoice, .turn]) := by
  obtain ⟨hrefusal, hbegun⟩ := begun_of_start h
  exact hbegun.rests hrefusal

/-! ## Reachable games -/

/-- A reachable game is at rest. -/
theorem Reachable.atRest (h : Reachable g) : g.AtRest := by
  induction h with
  | @started names s entropy g h =>
    exact (rests_of_start h).1
  | @fed g g' i hg h ih =>
    have hrests := feed_rests ih i
    rw [h] at hrests
    exact hrests

/-! ## Runs -/

/-- Some inputs come in after others. -/
theorem feedAll_append (xs ys : List Input) :
    g.feedAll (xs ++ ys) = g.feedAll xs >>= fun g => g.feedAll ys :=
  List.foldlM_append

/-- The game that some inputs lead to from a new one whose settings have a seed, if it starts and no
input is met with a fault. -/
def playOut (names : List String) (s : Settings) (inputs : List Input) : Option Game :=
  match start names s with
  | .ok g => (g.feedAll inputs).toOption
  | .error _ => none

/-- What is there once faults are forgotten was no fault. -/
theorem eq_ok_of_toOption {ε α : Type} {r : Except ε α} {a : α} (h : r.toOption = some a) :
    r = .ok a := by
  cases r with
  | ok a' => exact congrArg Except.ok (Option.some.inj h)
  | error cause => cases h

/-- What a new game is played out to is reachable. -/
theorem reachable_of_playOut {inputs : List Input} (h : playOut names s inputs = some g) :
    Reachable g := by
  unfold playOut at h
  split at h
  next g₀ hstart => exact (Reachable.started hstart).feedAll (eq_ok_of_toOption h)
  next => cases h

/-- A game that is played out, and one that comes of it, of which something is computed. -/
theorem exists_of_playOut {α : Type} {a : α} {inputs : List Input} {next : Game → Except Fault Game}
    {seen : Game → Game → α}
    (h : ((playOut names s inputs).bind fun g => (next g).toOption.map (seen g)) = some a) :
    ∃ g g', playOut names s inputs = some g ∧ next g = .ok g' ∧ seen g g' = a := by
  obtain ⟨g, hg, h⟩ := Option.bind_eq_some_iff.1 h
  obtain ⟨g', hg', hseen⟩ := Option.map_eq_some_iff.1 h
  exact ⟨g, g', hg, eq_ok_of_toOption hg', hseen⟩

end Game

end CoupTable
