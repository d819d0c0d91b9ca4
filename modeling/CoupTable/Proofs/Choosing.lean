import CoupTable.Proofs.Backlog
import CoupTable.Proofs.Rules

/-!
# Choosing the variant is configuring it

The variant of a table is settled in one of two ways: by its settings, or by the first player who
presses a button of the question for it. Either way the seats, the generator and the first player
are set up before, so that the same cards are dealt from the same deck, and the only difference is
in the messages: the table that was asked has the question and the answer to it behind it
(`feedAll_choice`). Since no game looks at its messages, the two go on in the same way for ever
(`Agrees.feedAll`).
-/

namespace CoupTable

/-! ## Settings -/

/-- A table is refused for the same reason whether a variant is settled or left open, as long as the
deck of the variant has the cards asked for. -/
theorem refusal?_of_canSupply {names : List String} {s : Settings} {v : Variant}
    (h : Deck.canSupply v.cast s.cardOverrides = true) :
    refusal? names { s with variant := some v } = refusal? names { s with variant := none } := by
  have hsettled : Settings.canSupply { s with variant := some v } = true := h
  have hopen : Settings.canSupply { s with variant := none } = true :=
    List.any_eq_true.2 ⟨v, List.mem_of_getElem? v.ofIndex?_index, h⟩
  simp only [refusal?, hsettled, hopen]

namespace Game

variable {g g' : Game} {names : List String} {s : Settings} {entropy : Pcg} {v : Variant}
  {press : Nat × String} {presses : List (Nat × String)}

/-! ## Games that agree -/

/-- Two games agree on everything but the messages that were sent. -/
def Agrees (g g' : Game) : Prop := ∃ outbox, g' = { g with venue := { g.venue with outbox } }

/-- From two games comes the same: the same fault, or games that agree, with the same messages sent
since. -/
inductive Parallel (g g' : Game) : Except Fault Game → Except Fault Game → Prop where
  /-- Both meet the fault. -/
  | fault {cause : Fault} : Parallel g g' (.error cause) (.error cause)
  /-- Both send the messages, and agree afterwards. -/
  | agree {x x' : Game} {sent : List Message} (h : x.Agrees x')
      (hx : x.venue.outbox = sent ++ g.venue.outbox)
      (hx' : x'.venue.outbox = sent ++ g'.venue.outbox) : Parallel g g' (.ok x) (.ok x')

/-- What was sent before is no matter of agreement. -/
theorem agrees_following (past : List Message) (g : Game) : g.Agrees (g.following past) :=
  ⟨_, rfl⟩

/-- From games that agree comes the same, whatever comes in. -/
theorem Agrees.feedAll (h : g.Agrees g') (inputs : List Input) :
    Parallel g g' (g.feedAll inputs) (g'.feedAll inputs) := by
  obtain ⟨past, rfl⟩ := h
  -- Both are the game without messages, with some sent before.
  have hrun : g.feedAll inputs = (·.following g.venue.outbox) <$> g.quiet.feedAll inputs :=
    unmoved_feedAll inputs _ g.quiet
  have hrun' : feedAll { g with venue := { g.venue with outbox := past } } inputs
      = (·.following past) <$> g.quiet.feedAll inputs := unmoved_feedAll inputs past g.quiet
  rw [hrun, hrun']
  cases g.quiet.feedAll inputs with
  | error cause => exact .fault
  | ok x => exact .agree ⟨x.venue.outbox ++ past, rfl⟩ rfl rfl

/-! ## Presses while the variant is open -/

/-- The press picks the variant: somebody at the table presses the game type that stands for it. -/
def Picks (seats : Nat) (v : Variant) (press : Nat × String) : Prop :=
  press.1 < seats ∧
    ∃ index, Move.parse? press.2 = some (.gameType index) ∧ Variant.ofIndex? index = some v

/-- The button for a variant picks it. -/
theorem picks_button {seats seat : Nat} (hseat : seat < seats) (v : Variant) :
    Picks seats v (seat, (Move.gameType v.index).data) := by
  refine ⟨hseat, v.index, ?_, v.ofIndex?_index⟩
  have hparse : ∀ v : Variant, Move.parse? (Move.gameType v.index).data
      = some (.gameType v.index) := by
    intro v
    cases v <;> decide +kernel
  exact hparse v

/-- While the variant is open, a press by somebody at the table is taken as a choice of one. -/
theorem press_of_open {seat : Nat} {data : String} {m : Move}
    (hf : g.stack.frames = [.variantChoice, .turn])
    (hover : g.isOver = false) (hseat : seat < g.players.length)
    (hdata : Move.parse? data = some m) : g.press seat data = g.variantInput m >>= settle := by
  rw [press_eq hseat hover hdata, dispatch, Stack.top?, hf]
  rfl

/-- A press that picks no variant is ignored while the variant is open. -/
theorem press_of_not_picks (h : g.AtRest) (hf : g.stack.frames = [.variantChoice, .turn])
    (hnone : ∀ w, ¬ Picks g.players.length w press) : g.press press.1 press.2 = .ok g := by
  have hover := h.isOver_eq_false hf nofun
  by_cases hseat : press.1 < g.players.length
  · cases hdata : Move.parse? press.2 with
    | none => exact press_of_parse?_eq_none hdata press.1
    | some m =>
      have hstay : g.variantInput m = .ok g := by
        unfold variantInput
        split
        next index =>
          split
          next w hw => exact absurd ⟨hseat, index, hdata, hw⟩ (hnone w)
          next => rfl
        next => rfl
      rw [press_of_open hf hover hseat hdata, hstay, ok_bind, settle_eq h.still]
  · rw [Game.press, decide_eq_false hseat, Bool.false_and, if_neg Bool.false_ne_true]

/-- A press as it comes into a game. -/
def asInput (press : Nat × String) : Input := .press press.1 press.2

/-- Presses that pick no variant are ignored while the variant is open. -/
theorem feedAll_of_not_picks (h : g.AtRest) (hf : g.stack.frames = [.variantChoice, .turn])
    (hnone : ∀ press ∈ presses, ∀ w, ¬ Picks g.players.length w press) :
    g.feedAll (presses.map asInput) = .ok g := by
  induction presses with
  | nil => rfl
  | cons press presses ih =>
    obtain ⟨hfirst, hrest⟩ := List.forall_mem_cons.1 hnone
    have hpress : g.feed (asInput press) = .ok g := press_of_not_picks h hf hfirst
    rw [List.map_cons, feedAll_cons, hpress, ok_bind, ih hrest]

/-! ## Two ways to begin -/

/-- A table whose players, generator and deck to be are settled, with the turn alone on the stack.
-/
def seated (names : List String) (s : Settings) (entropy : Pcg) : Game :=
  { newTable names s entropy with stack := ⟨[.turn]⟩ }

/-- A table with a variant begins with the deal. -/
theorem begin_some :
    (newTable names s entropy).begin (some v) = (seated names s entropy).deal v := rfl

/-- A table without a variant begins with the question for it. -/
theorem begin_none :
    (newTable names s entropy).begin none = .ok (opened names s entropy).askVariant := rfl

/-- What is sent while a variant is chosen, the newest message first. -/
def choosing (v : Variant) : List Message :=
  [⟨.everyone, Wording.variantChosen v.name, []⟩,
    ⟨.everyone, Wording.askVariant,
      Variant.all.map fun v => ⟨v.name, (Move.gameType v.index).data⟩⟩]

/-- The deal that follows the choice of a variant comes to what the deal at the start does, with the
question and the answer sent before. -/
theorem variantInput_askVariant {index : Nat} (hindex : Variant.ofIndex? index = some v)
    (hdeal : (seated names s entropy).deal v = .ok g) :
    (opened names s entropy).askVariant.variantInput (.gameType index)
      = .ok (g.following (choosing v)) := by
  -- The deck is built from the same generator, so that the deal is the same but for the messages.
  have hdealt : Unmoved (·.dealFrom v
      (Deck.build v.cast s.cardOverrides (newTable names s entropy).rng)) :=
    .of_steady fun _ => steady_dealFrom v _
  have hfollows : Follows (choosing v) ((seated names s entropy).deal v)
      (((seated names s entropy).following (choosing v)).deal v) := hdealt _ _
  rw [Follows, hdeal] at hfollows
  unfold variantInput
  dsimp only
  rw [hindex]
  exact hfollows

/-- A table at which a variant is chosen comes to the game that the variant begins with at once,
whatever else is pressed before, with the question and the answer sent before. -/
theorem feedAll_choice {choice : Nat × String} (hrefusal : refusal? names s = none)
    (hdeal : (seated names s entropy).deal v = .ok g) (hstill : g.stirred = false)
    (hnone : ∀ press ∈ presses, ∀ w, ¬ Picks names.length w press)
    (hchoice : Picks names.length v choice) :
    (opened names s entropy).askVariant.feedAll ((presses ++ [choice]).map asInput)
      = .ok (g.following (choosing v)) := by
  have hbegun : Begun names s entropy (opened names s entropy).askVariant :=
    @Begun.asking names s entropy [⟨.everyone, Wording.askVariant, _⟩]
  have hrest := (hbegun.rests hrefusal).1
  have hseats : (opened names s entropy).askVariant.players.length = names.length := by
    simp [askVariant, broadcast, opened, newTable, newPlayers]
  obtain ⟨hseat, index, hdata, hindex⟩ := hchoice
  rw [← hseats] at hnone hseat
  have hpress : (opened names s entropy).askVariant.press choice.1 choice.2
      = .ok (g.following (choosing v)) := by
    rw [press_of_open rfl rfl hseat hdata, variantInput_askVariant hindex hdeal, ok_bind]
    exact settle_eq hstill
  rw [List.map_append, feedAll_append, feedAll_of_not_picks hrest rfl hnone, ok_bind]
  exact congrArg (· >>= fun g => g.feedAll []) hpress

/-! ## The result -/

/-- A table at which a variant is chosen and one with the variant in its settings are refused for
the same reason, as long as the deck of the variant has the cards asked for, or both begin. Then
whatever is pressed before the choice, and whoever makes it, the two games agree on everything but
the messages, and whatever comes in afterwards, they send the same messages and agree still, or
meet the same fault. -/
theorem choosing_is_configuring (names : List String) (s : Settings) (entropy : Pcg) (v : Variant)
    (hsupply : Deck.canSupply v.cast s.cardOverrides = true) :
    (∃ reason, start names { s with variant := some v } entropy = .error reason ∧
      start names { s with variant := none } entropy = .error reason) ∨
    ∃ g g₀, start names { s with variant := some v } entropy = .ok g ∧
      start names { s with variant := none } entropy = .ok g₀ ∧
      ∀ (presses : List (Nat × String)) (choice : Nat × String),
        (∀ press ∈ presses, ∀ w, ¬ Picks names.length w press) →
        Picks names.length v choice →
        ∃ g', g₀.feedAll ((presses ++ [choice]).map asInput) = .ok g' ∧ g.Agrees g' ∧
          ∀ inputs, Parallel g g' (g.feedAll inputs) (g'.feedAll inputs) := by
  have hsame : refusal? names { s with variant := some v }
      = refusal? names { s with variant := none } := refusal?_of_canSupply hsupply
  unfold start
  rw [← hsame]
  cases hrefusal : refusal? names { s with variant := some v } with
  | some reason => exact .inl ⟨reason, rfl, rfl⟩
  | none =>
    obtain ⟨g, hdeal, hbegun⟩ := begin_eq hrefusal
    refine .inr ⟨g, (opened names s entropy).askVariant,
      congrArg (Except.mapError Refusal.fault) hdeal, rfl, fun presses choice hnone hchoice => ?_⟩
    refine ⟨g.following (choosing v), ?_, agrees_following _ _, (agrees_following _ _).feedAll⟩
    exact feedAll_choice (s := { s with variant := none }) (hsame.symm.trans hrefusal) hdeal
      (hbegun.rests hrefusal).1.still hnone hchoice

/-- Three players press this and that before Cid picks the reformation with the inquisitor: nobody
sits in seat seven, there is no game type nine, and income is to no avail. -/
theorem choosing_is_configuring_at_last : ∃ g g₀ g',
    start ["Ada", "Bob", "Cid"]
        { seed := some 7, cardOverrides := [.inquisitor],
          variant := some .reformationInquisitor } = .ok g ∧
      start ["Ada", "Bob", "Cid"] { seed := some 7, cardOverrides := [.inquisitor] } = .ok g₀ ∧
      g₀.feedAll [.press 1 "income", .press 7 "game_type:0", .press 0 "game_type:9",
        .press 2 "game_type:3"] = .ok g' ∧
      g.Agrees g' ∧ ∀ inputs, Parallel g g' (g.feedAll inputs) (g'.feedAll inputs) := by
  have hsupply : Deck.canSupply Variant.reformationInquisitor.cast [.inquisitor] = true := by decide
  have hbegins : (start ["Ada", "Bob", "Cid"]
      { seed := some 7, cardOverrides := [.inquisitor],
        variant := some .reformationInquisitor }).toOption.isSome = true := by decide +kernel
  have hnone : ∀ press ∈ [(1, "income"), (7, "game_type:0"), (0, "game_type:9")],
      ∀ w, ¬ Picks 3 w press := by
    have hincome : Move.parse? "income" = some .income := by decide +kernel
    have hnine : Move.parse? "game_type:9" = some (.gameType 9) := by decide +kernel
    simp only [List.forall_mem_cons]
    refine ⟨?_, ?_, ?_, List.forall_mem_nil _⟩
    · rintro w ⟨-, index, hdata, -⟩
      cases hincome.symm.trans hdata
    · rintro w ⟨hseat, -⟩
      exact absurd hseat (by decide)
    · rintro w ⟨-, index, hdata, hindex⟩
      cases hnine.symm.trans hdata
      cases hindex
  obtain ⟨reason, hrefused, -⟩ | ⟨g, g₀, hg, hg₀, hall⟩ := choosing_is_configuring
    ["Ada", "Bob", "Cid"] { seed := some 7, cardOverrides := [.inquisitor] } (.ofSeed 0)
    .reformationInquisitor hsupply
  · rw [hrefused] at hbegins
    cases hbegins
  · obtain ⟨g', hg', hsame⟩ := hall _ _ hnone (picks_button (by decide : 2 < 3) _)
    exact ⟨g, g₀, g', hg, hg₀, hg', hsame⟩

end Game

end CoupTable
