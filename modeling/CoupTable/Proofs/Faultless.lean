import CoupTable.Proofs.Reaching

/-!
# Nothing that comes in is met with a fault

Whatever is pressed, reported or waited for, a reachable game goes on. Its frames are there when
they are looked for, its deck has the cards that are drawn, its players the coins that are taken,
and every seat or slot that is looked up exists, in the game before the input and in each game that
the input brings up on the way. Only the clock may come to its end.
-/

namespace CoupTable

/-- The seats that a frame names. -/
def Frame.seats : Frame → List Nat
  | turn | variantChoice => []
  | loss seat => [seat]
  | claim c => c.actor :: (c.effect.victim?.toList ++ c.target.toList)
  | reveal r => [r.challenger, r.challenged]
  | exchange e => [e.player]
  | interrogation i => [i.inquisitor, i.target]

/-- Whoever may block a claim alone is its victim. -/
theorem Effect.victim?_of_blocker? {effect : Effect} {seat : Nat}
    (h : effect.blocker? = some seat) : effect.victim? = some seat := by
  cases effect <;> first | exact h | cases h

namespace Game

variable {g g' x : Game} {c : Claim} {below : List Frame} {i : Input}

/-! ## Seats and slots -/

/-- Every seat and every slot that the game names is there. -/
structure InRange (g : Game) : Prop where
  /-- The current player sits at the table. -/
  current : g.current < g.players.length
  /-- So does everybody whom a frame names. -/
  frames : ∀ f ∈ g.stack.frames, ∀ seat ∈ f.seats, seat < g.players.length
  /-- The card that an inquisitor looks at is alive. -/
  shown : ∀ i slot, .interrogation i ∈ g.stack.frames → i.shown = some slot →
    g.livesAt i.target slot = true

/-- The current player's claim names players at the table. -/
theorem OnTurn.seats_lt (h : g.OnTurn c) (hcurrent : g.current < g.players.length) :
    ∀ seat ∈ (Frame.claim c).seats, seat < g.players.length := by
  intro seat hseat
  simp only [Frame.seats, List.mem_cons, List.mem_append, Option.mem_toList] at hseat
  rcases hseat with rfl | hvictim | htarget
  · rwa [h.actor]
  · exact (h.victim seat hvictim).1
  · rw [h.fits.target] at htarget
    exact (h.victim seat (Effect.victim?_of_blocker? htarget)).1

/-- A pending claim and what lies below it name players at the table. -/
theorem Pending.seats_lt (h : g.Pending c below) (hcurrent : g.current < g.players.length) :
    ∀ f ∈ Frame.claim c :: below, ∀ seat ∈ f.seats, seat < g.players.length := by
  have hactor := h.actor_lt
  have hturn : ∀ f ∈ [Frame.turn], ∀ seat ∈ f.seats, seat < g.players.length := by
    simp [Frame.seats]
  cases h with
  | own hc => exact List.forall_mem_cons.2 ⟨hc.seats_lt hcurrent, hturn⟩
  | block hc _ hb =>
    refine List.forall_mem_cons.2 ⟨?_, List.forall_mem_cons.2 ⟨hc.seats_lt hcurrent, hturn⟩⟩
    intro seat hseat
    rw [Frame.seats, hb.effect, hb.target] at hseat
    simp only [Effect.victim?, Option.toList_none, List.append_nil, List.mem_singleton] at hseat
    rwa [hseat]

/-- No card is looked at while a claim is pending. -/
theorem Pending.no_interrogation (h : g.Pending c below) (j : Interrogation) :
    Frame.interrogation j ∉ Frame.claim c :: below := by
  cases h <;> simp

/-- In a sound game every seat and every slot that is named is there. -/
theorem Sound.inRange (h : g.Sound) : g.InRange := by
  have hshape := h.shape
  refine ⟨h.current, ?_, ?_⟩
  · -- A frame is about the current player or about living ones, who have seats.
    generalize g.stack.frames = frames at hshape
    cases hshape with
    | turn | variantChoice => simp [Frame.seats]
    | loss hlives => simpa [Frame.seats] using lt_of_isAlive hlives
    | exchange hplayer => simpa [Frame.seats, hplayer] using h.current
    | interrogation hinquisitor _ hlives =>
      simpa [Frame.seats, hinquisitor] using ⟨h.current, lt_of_isAlive hlives⟩
    | asked hc => exact hc.seats_lt h.current
    | challenged hc _ _ _ hlives =>
      refine List.forall_mem_cons.2 ⟨?_, hc.seats_lt h.current⟩
      simpa [Frame.seats] using ⟨lt_of_isAlive hlives, hc.actor_lt⟩
    | upheld hc _ _ _ hlives =>
      refine List.forall_mem_cons.2 ⟨?_, hc.seats_lt h.current⟩
      simpa [Frame.seats] using lt_of_isAlive hlives
  · -- The card that is shown in an interrogation is one of the living cards of its target.
    intro j slot hj hslot
    generalize g.stack.frames = frames at hshape hj
    cases hshape with
    | interrogation _ _ _ hshown =>
      simp only [List.mem_cons, Frame.interrogation.injEq, List.not_mem_nil, reduceCtorEq,
        or_false] at hj
      subst hj
      exact hshown slot hslot
    | turn | variantChoice | loss | exchange => simp at hj
    | asked hc => exact absurd hj (hc.no_interrogation j)
    | challenged hc | upheld hc =>
      refine absurd hj (List.not_mem_cons_of_ne_of_not_mem nofun (hc.no_interrogation j))

/-! ## On the way -/

/-- The games that come up while frames go on by themselves. -/
inductive Idles : Game → Game → Prop where
  /-- The first one. -/
  | here {g : Game} : Idles g g
  /-- What comes up after a frame went on. -/
  | on {g g₁ x : Game} (hstirred : g.stirred = true)
      (hidle : { g with stirred := false }.idle = .ok g₁) (h : Idles g₁ x) : Idles g x

/-- The games that come up while an input is taken in. -/
inductive Visits : Game → Input → Game → Prop where
  /-- The game that the input is for. -/
  | here {g : Game} {i : Input} : Visits g i g
  /-- What comes up after the frame on top took in a press. -/
  | press {g g₁ x : Game} {seat : Nat} {data : String} {m : Move} (hover : g.isOver = false)
      (hm : Move.parse? data = some m) (hdispatch : g.dispatch seat m = .ok g₁)
      (h : Idles g₁ x) : Visits g (.press seat data) x
  /-- What comes up after time ran out for a claim. -/
  | expire {g g₁ x : Game} {id : AlarmId} {c : Claim} {below : List Frame}
      (hf : g.stack.frames = .claim c :: below) (hid : c.alarm = some id)
      (hresolve : (g.setTop (.claim { c with alarm := none })).resolve { c with alarm := none }
        = .ok g₁)
      (h : Idles g₁ x) : Visits g (.expire id) x
  /-- What comes up while one of the alarms that are due goes off, after some others. -/
  | due {g g₁ x : Game} {time : Nat} {ids later : List AlarmId} {id : AlarmId} {venue : Venue}
      (hadvance : g.venue.advance time = .ok (ids ++ id :: later, venue))
      (hids : ids.foldlM (fun g id => g.expire id) { g with venue } = .ok g₁)
      (h : Visits g₁ (.expire id) x) : Visits g (.advance time) x
  /-- What comes up in another round, after the alarms that were due went off. -/
  | round {g g₁ x : Game} {time : Nat} {ids : List AlarmId} {venue : Venue}
      (hadvance : g.venue.advance time = .ok (ids, venue))
      (hids : ids.foldlM (fun g id => g.expire id) { g with venue } = .ok g₁)
      (h : Visits g₁ (.advance 0) x) : Visits g (.advance time) x

/-- A sound game stays sound while frames go on by themselves. -/
theorem Idles.sound (hidles : Idles g x) (h : g.Sound) : x.Sound := by
  induction hidles with
  | here => exact h
  | @on g g₁ x hstirred hidle _ ih =>
    exact ih (h.idled hstirred hidle).2

/-- A game at rest stays sound while an input is taken in. -/
theorem Visits.sound (hvisits : Visits g i x) (h : g.AtRest) : x.Sound := by
  induction hvisits with
  | here => exact h.toSound
  | @press g g₁ x seat data m hover _ hdispatch hidles =>
    obtain ⟨g', hyields, ⟨rfl, -⟩ | hstep⟩ := dispatch_yields h seat m
    · rw [hdispatch] at hyields
      cases hyields
      exact hidles.sound h.toSound
    · rw [hdispatch] at hyields
      cases hyields
      exact hidles.sound (hstep.sound h.toSound h.still hover)
  | @expire g g₁ x id c below hf hid hresolve hidles =>
    obtain ⟨g', hgranted, hgrant⟩ := h.resolve_eq hf { c with alarm := none } rfl rfl
    rw [hresolve] at hgranted
    cases hgranted
    have hover := h.isOver_eq_false hf nofun
    exact hidles.sound ((Step.timeOut hf hid hgrant).sound h.toSound h.still hover)
  | @due g g₁ x time ids later id venue _ hids _ ih =>
    have hrests := expireAll_rests (h.of_venue venue) ids
    rw [hids] at hrests
    exact ih hrests.1
  | @round g g₁ x time ids venue _ hids _ ih =>
    have hrests := expireAll_rests (h.of_venue venue) ids
    rw [hids] at hrests
    exact ih hrests.1

/-! ## The result -/

/-- A reachable game takes in whatever comes: it ends up at a game where nothing stirs, and never
meets a fault, unless an alarm would have to be set beyond the end of the clock. On the way, too,
every seat and every slot that is named is there. -/
theorem Reachable.feed_faultless (h : Reachable g) (i : Input) :
    ((∃ g', g.feed i = .ok g' ∧ g'.InRange ∧ g'.stirred = false) ∨
      (g.feed i = .error .clockOverflow ∧
        clockEnd ≤ g.venue.alarms.now + i.duration + g.waitTime)) ∧
    ∀ x, Visits g i x → x.InRange := by
  have hrest := h.atRest
  refine ⟨?_, fun x hvisits => (hvisits.sound hrest).inRange⟩
  have hrests := feed_rests hrest i
  cases hfeed : g.feed i with
  | ok g' =>
    rw [hfeed] at hrests
    have hrests : g'.AtRest := hrests
    exact .inl ⟨g', rfl, hrests.toSound.inRange, hrests.still⟩
  | error cause =>
    rw [hfeed] at hrests
    obtain ⟨rfl, hclock⟩ := hrests
    exact .inr ⟨rfl, hclock⟩

/-- Two players settle the variant: the deck that is shuffled then holds the cards to be dealt. -/
theorem feed_faultless_opened :
    ∃ g, start ["Ada", "Bob"] { seed := some 0, startPlayer := some 0 } = .ok g ∧ Reachable g ∧
      ∃ g', g.feed (.press 1 (Move.gameType 0).data) = .ok g' ∧ g'.InRange := by
  have hstart : start ["Ada", "Bob"] { seed := some 0, startPlayer := some 0 }
      = .ok (opened ["Ada", "Bob"]
          { seed := some 0, startPlayer := some 0 } (.ofSeed 0)).askVariant :=
    rfl
  have hg := Reachable.started hstart
  refine ⟨_, hstart, hg, ?_⟩
  obtain ⟨⟨g', hfeed, hrange, -⟩ | ⟨-, hclock⟩, -⟩ :=
    hg.feed_faultless (.press 1 (Move.gameType 0).data)
  · exact ⟨g', hfeed, hrange⟩
  · have hsoon : 0 + 0 + 60000 * millisecond < clockEnd := by decide
    exact absurd hclock (Nat.not_le.2 hsoon)

end Game

end CoupTable
