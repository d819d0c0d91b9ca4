import CoupTable.Proofs.SoundSteps

/-!
# While a turn goes on

Whoever has the turn keeps it while it is under way, the players keep their names, and nothing that
is sent is a status (`Game.Continues`). Every step is like that but two, the deal and the end of a
turn (`Step.continues`). These only add messages, as all steps do (`Step.tells`).
-/

namespace CoupTable

namespace Game

variable {g g' g₁ : Game} {cause : Cause} {seat : Nat} {below : List Frame} {p q : Player}
  {effect : Effect}

/-! ## Messages -/

/-- Nothing that was sent is taken back. -/
def Tells (g g' : Game) : Prop := ∃ ms, g'.venue.outbox = ms ++ g.venue.outbox

/-- Taking an alarm back leaves the messages as they are. -/
theorem outbox_release {v : Venue} (id : Option AlarmId) : (v.release id).outbox = v.outbox := by
  cases id <;> rfl

/-! ## While a turn goes on -/

/-- The turn stays where it is, and no status is sent. -/
structure Continues (g g' : Game) : Prop where
  /-- It is the turn of the same player. -/
  current : g'.current = g.current
  /-- The variant is the same. -/
  variant : g'.variant = g.variant
  /-- The players have the same names. -/
  names : g'.names = g.names
  /-- What is sent is no status. -/
  remarks : ∃ ms, g.Remarks ms ∧ g'.venue.outbox = ms ++ g.venue.outbox

/-- A player who is changed, but for the name, leaves all names the same. -/
theorem names_of_set (hp : g.players[seat]? = some p) (hps : g'.players = g.players.set seat q)
    (h : q.name = p.name) : g'.names = g.names := by
  rw [names, hps]
  exact map_set_eq hp h

/-- Two players who are changed one after the other, but for the names, leave all names the same. -/
theorem names_of_set_set {other : Nat} {p' q' : Player} (hp : g.players[seat]? = some p)
    (hq : (g.players.set seat p')[other]? = some q)
    (hps : g'.players = (g.players.set seat p').set other q') (hp' : p'.name = p.name)
    (hq' : q'.name = q.name) : g'.names = g.names := by
  rw [names, hps]
  exact (map_set_eq hq hq').trans (map_set_eq hp hp')

namespace Continues

/-- Nothing happens. -/
theorem refl (g : Game) : g.Continues g := ⟨rfl, rfl, rfl, [], .nil, rfl⟩

/-- A turn that goes on, and then goes on. -/
theorem trans (h : g.Continues g₁) (h' : g₁.Continues g') : g.Continues g' := by
  obtain ⟨ms, hms, hout⟩ := h.remarks
  obtain ⟨ms', hms', hout'⟩ := h'.remarks
  exact {
    current := h'.current.trans h.current
    variant := h'.variant.trans h.variant
    names := h'.names.trans h.names
    remarks := ⟨ms' ++ ms, (hms'.of_names h.names).append hms, by
      rw [hout', hout, List.append_assoc]⟩ }

/-- There are as many players as before. -/
theorem length_eq (h : g.Continues g') : g'.players.length = g.players.length := by
  simpa [Game.names] using congrArg List.length h.names

end Continues

/-- A claim that goes through leaves the turn where it is. -/
theorem Grant.continues (h : Grant g seat effect g') : g.Continues g' := by
  cases h with
  | foreignAid hp hms | tax hp hms | embezzle hp hms | assassinate hp _ hms
  | assassinateDead hp _ hms => exact ⟨rfl, rfl, names_of_set hp rfl rfl, _, hms, rfl⟩
  | steal hp hq hne hms =>
    have hp' := fun q' => (List.getElem?_set_ne (a := q') hne).trans hp
    exact ⟨rfl, rfl, names_of_set_set hq (hp' _) rfl rfl rfl, _, hms, rfl⟩
  | exchange _ _ _ hms | inspect _ hms => exact ⟨rfl, rfl, rfl, _, hms, rfl⟩
  | inspectDead => exact .refl _
  | block _ _ hms => exact ⟨rfl, rfl, rfl, _, hms, outbox_release _⟩
  | blockKill _ _ hp hms =>
    exact ⟨rfl, rfl, names_of_set hp rfl rfl, _, hms, outbox_release _⟩

/-- An answer to a challenge leaves the turn where it is. -/
theorem Answer.continues {r : Reveal} {c : Claim} {choice : Nat}
    (h : Answer g r c below choice g') : g.Continues g' := by
  cases h with
  | proven hp _ _ _ _ _ hms | shown hp _ _ _ _ hms =>
    exact ⟨rfl, rfl, names_of_set hp rfl (by rw [Player.redraw_eq]), _, hms, rfl⟩
  | caught hp _ _ _ _ hms =>
    exact ⟨rfl, rfl, names_of_set hp rfl rfl, _, hms, outbox_release _⟩
  | conceded _ hms => exact ⟨rfl, rfl, rfl, _, hms, outbox_release _⟩

/-- Every step leaves the turn where it is, but for the deal and for that of the turn when it goes
on by itself, and these add messages at most. -/
theorem Step.continues_or_tells (h : g.Sound) (hstep : Step g cause g') :
    g.Continues g' ∨ g.Tells g' ∧
      (g.variant = none ∨ cause = .idle ∧ ∃ below, g.stack.frames = .turn :: below) := by
  cases hstep with
  | deal hf _ hdeal =>
    obtain ⟨built, ms, -, rfl⟩ := h.of_deal hf hdeal
    exact .inr ⟨⟨ms, rfl⟩, .inl (h.shape_of hf).variant_eq_none⟩
  | pass hf | finish hf => exact .inr ⟨⟨_, rfl⟩, .inr ⟨rfl, _, hf⟩⟩
  | acceptLast _ _ hgrant | unopposed _ _ hgrant =>
    obtain ⟨hcurrent, hvariant, hnames, ms, hms, hout⟩ := hgrant.continues
    exact .inl ⟨hcurrent, hvariant, hnames, ms, hms, hout.trans (congrArg _ (outbox_release _))⟩
  | timeOut _ _ hgrant =>
    obtain ⟨hcurrent, hvariant, hnames, hremarks⟩ := hgrant.continues
    exact .inl ⟨hcurrent, hvariant, hnames, hremarks⟩
  | answer _ hanswer | answerLast _ _ _ _ hanswer => exact .inl hanswer.continues
  | income _ hp _ hms | coup _ hp _ _ _ hms | lose _ hp _ hms | keepLast _ _ _ hp hms =>
    exact .inl ⟨rfl, rfl, names_of_set hp rfl rfl, _, hms, rfl⟩
  | convert _ _ hp _ _ _ hq hms =>
    exact .inl ⟨rfl, rfl, names_of_set_set hp hq rfl rfl rfl, _, hms, rfl⟩
  | change _ _ hp _ _ _ hms =>
    exact .inl ⟨rfl, rfl, names_of_set hp rfl (by rw [Player.redraw_eq]), _, hms, rfl⟩
  | loseAll _ hp =>
    exact .inl ⟨rfl, rfl, names_of_set hp rfl (by rw [Player.killAll_eq]), [], .nil, rfl⟩
  | ask _ _ hms =>
    exact .inl ⟨rfl, rfl, rfl, _, hms, congrArg _ (outbox_release _)⟩
  | challenge | block | dropDead => exact .inl ⟨rfl, rfl, rfl, [], .nil, outbox_release _⟩
  | claim | accept | keep => exact .inl ⟨rfl, rfl, rfl, [], .nil, rfl⟩
  | askTarget _ _ hms | showCard _ _ _ hms | showOnly _ _ _ _ _ hms | allow _ _ hms
  | askSomebody _ _ _ hms => exact .inl ⟨rfl, rfl, rfl, _, hms, rfl⟩

/-- No step takes a message back. -/
theorem Step.tells (h : g.Sound) (hstep : Step g cause g') : g.Tells g' := by
  rcases hstep.continues_or_tells h with hstay | ⟨htells, -⟩
  · obtain ⟨ms, -, hout⟩ := hstay.remarks
    exact ⟨ms, hout⟩
  · exact htells

/-- Once the cards are dealt, every step leaves the turn where it is, but for that of the turn when
it goes on by itself. -/
theorem Step.continues (h : g.Sound) (hv : g.variant ≠ none) (hstep : Step g cause g')
    (hturn : cause = .idle → ∀ below, g.stack.frames ≠ .turn :: below) : g.Continues g' := by
  rcases hstep.continues_or_tells h with hstay | ⟨-, hnone | ⟨hidle, below, hf⟩⟩
  · exact hstay
  · exact absurd hnone hv
  · exact absurd hf (hturn hidle below)

end Game

end CoupTable
