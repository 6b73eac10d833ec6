import WordDuel.Words.Desk
/-!
# WordDuel.Proofs.Freshness

**How old the words may be that a cache gives out.** What is remembered of a language and kind
was loaded last by a look-up since which nothing has been forgotten, and every other load since
then is older by the time to live at least (`Remembers`). So a look-up is served without the
source exactly if such a load is younger than the time to live, and otherwise the answer is what
the source gives at that very moment, be it words or a failure (`ask_of_history`).
-/

namespace WordDuel

namespace WordDesk

variable {d : WordDesk} {events : List DeskEvent} {event : DeskEvent} {l : Language}
  {kind : WordKind} {words : WordSet}

/-! ### One look-up -/

/-- Nothing that is remembered of a language and kind is younger than the time to live. -/
def Stale (d : WordDesk) (l : Language) (kind : WordKind) : Prop :=
  ∀ e ∈ d.cache.entry l kind, d.cache.ttl ≤ d.now - e.loadedAt

/-- The ways in which a look-up is answered: from what is remembered, if that is young enough,
or by the source, which gives words or fails. -/
theorem ask_cases (d : WordDesk) (l : Language) (kind : WordKind) :
    (∃ e, d.cache.entry l kind = some e ∧ d.now - e.loadedAt < d.cache.ttl ∧
      d.ask l kind = (⟨.ok e.words, false⟩, d.cache)) ∨
    (d.Stale l kind ∧ ∃ words, d.source l kind = .ok words ∧
      d.ask l kind = (⟨.ok words, true⟩, d.cache.remember d.now l kind words)) ∨
    (d.Stale l kind ∧ ∃ cause, d.source l kind = .error cause ∧
      d.ask l kind = (⟨.error cause, true⟩, d.cache)) := by
  rw [ask, WordCache.lookup]
  cases hfresh : d.cache.fresh? d.now l kind with
  | some words =>
      rw [WordCache.fresh?] at hfresh
      split at hfresh
      · next e hfound =>
        split at hfresh
        · next hyoung =>
          obtain rfl := Option.some.inj hfresh
          exact .inl ⟨e, hfound, hyoung, rfl⟩
        · cases hfresh
      · cases hfresh
  | none =>
      have hstale : d.Stale l kind := by
        intro e hfound
        rw [WordCache.fresh?, Option.mem_def.1 hfound] at hfresh
        dsimp only at hfresh
        split at hfresh
        · cases hfresh
        · next hold => exact Nat.le_of_not_lt hold
      cases hgiven : d.source l kind with
      | ok words => exact .inr (.inl ⟨hstale, words, rfl, rfl⟩)
      | error cause => exact .inr (.inr ⟨hstale, cause, rfl, rfl⟩)

/-- A look-up of words that the source fails to give changes nothing. -/
theorem after_lookup_of_error {cause : DictionaryCause} (h : d.source l kind = .error cause) :
    d.after (.lookup l kind) = d := by
  rw [after]
  rcases d.ask_cases l kind with ⟨e, -, -, hask⟩ | ⟨-, words, hgiven, -⟩ | ⟨-, cause', -, hask⟩
  · rw [hask]
  · cases h.symm.trans hgiven
  · rw [hask]

/-- A look-up leaves alone what is remembered of other words. -/
theorem entry_after_lookup {l' : Language} {kind' : WordKind} (h : ¬(l' = l ∧ kind' = kind)) :
    (d.after (.lookup l kind)).cache.entry l' kind' = d.cache.entry l' kind' := by
  rw [after]
  rcases d.ask_cases l kind with ⟨e, -, -, hask⟩ | ⟨-, words, -, hask⟩ | ⟨-, cause, -, hask⟩
  · rw [hask]
  · rw [hask]
    exact if_neg h
  · rw [hask]

/-! ### Moments of a history -/

/-- What holds before anything has happened, and after an event if it holds before, holds after
every history. -/
theorem run_induction {P : List DeskEvent → WordDesk → Prop} (d : WordDesk) (start : P [] d)
    (step : ∀ events event, P events (d.run events) →
      P (events ++ [event]) ((d.run events).after event))
    (events : List DeskEvent) : P events (d.run events) := by
  suffices hreversed : ∀ reversed : List DeskEvent, P reversed.reverse (d.run reversed.reverse) by
    simpa using hreversed events.reverse
  intro reversed
  induction reversed with
  | nil => exact start
  | cons event reversed ih =>
      rw [List.reverse_cons, run_concat]
      exact step _ _ ih

theorem moment_length : d.moment events events.length = d.run events := by
  rw [moment, List.take_length]

theorem moment_concat {i : Nat} (h : i ≤ events.length) :
    d.moment (events ++ [event]) i = d.moment events i := by
  rw [moment, List.take_append_of_le_length h, moment]

theorem ttl_run (d : WordDesk) (events : List DeskEvent) :
    (d.run events).cache.ttl = d.cache.ttl := by
  refine run_induction (P := fun _ d' => d'.cache.ttl = d.cache.ttl) d rfl
    (fun events event h => ?_) events
  cases event with
  | change source => exact h
  | wait time => exact h
  | invalidate => exact h
  | lookup l kind =>
      rw [after]
      rcases (d.run events).ask_cases l kind with ⟨e, -, -, hask⟩ | ⟨-, words, -, hask⟩ |
        ⟨-, cause, -, hask⟩ <;> rw [hask] <;> exact h

/-! ### Loads -/

/-- A look-up of a language and kind went to the source, and was given these words. -/
structure Loads (d : WordDesk) (events : List DeskEvent) (l : Language) (kind : WordKind) (i : Nat)
    (words : WordSet) : Prop where
  asked : events[i]? = some (.lookup l kind)
  loaded : ((d.moment events i).ask l kind).1.loaded
  given : (d.moment events i).source l kind = .ok words

/-- A load since which nothing has been forgotten, and which is younger than the time to
live. -/
structure Lasting (d : WordDesk) (events : List DeskEvent) (l : Language) (kind : WordKind)
    (i : Nat) (words : WordSet) : Prop where
  loads : d.Loads events l kind i words
  kept : .invalidate ∉ events.drop i
  young : (d.run events).now - (d.moment events i).now < d.cache.ttl

theorem Loads.lt {i : Nat} (h : d.Loads events l kind i words) : i < events.length :=
  (List.getElem?_eq_some_iff.1 h.asked).1

theorem Loads.concat {i : Nat} (h : d.Loads events l kind i words) (event : DeskEvent) :
    d.Loads (events ++ [event]) l kind i words where
  asked := by
    rw [List.getElem?_append_left h.lt]
    exact h.asked
  loaded := by
    rw [moment_concat (Nat.le_of_lt h.lt)]
    exact h.loaded
  given := by
    rw [moment_concat (Nat.le_of_lt h.lt)]
    exact h.given

/-- A load has been one before the last event, or it is the last event. -/
theorem Loads.before_or_last {i : Nat} (h : d.Loads (events ++ [event]) l kind i words) :
    d.Loads events l kind i words ∨
      i = events.length ∧ event = .lookup l kind ∧ ((d.run events).ask l kind).1.loaded ∧
        (d.run events).source l kind = .ok words := by
  obtain ⟨hasked, hloaded, hgiven⟩ := h
  rw [List.getElem?_append] at hasked
  split at hasked
  · next hlt =>
    rw [moment_concat (Nat.le_of_lt hlt)] at hloaded hgiven
    exact .inl ⟨hasked, hloaded, hgiven⟩
  · next hge =>
    obtain ⟨hindex, hevent⟩ := List.getElem?_eq_some_iff.1 hasked
    obtain rfl : i = events.length := by
      rw [List.length_singleton] at hindex
      omega
    rw [moment_concat (Nat.le_refl _), moment_length] at hloaded hgiven
    exact .inr ⟨rfl, by simpa using hevent, hloaded, hgiven⟩

theorem loads_last (hloaded : ((d.run events).ask l kind).1.loaded)
    (hgiven : (d.run events).source l kind = .ok words) :
    d.Loads (events ++ [.lookup l kind]) l kind events.length words := by
  refine ⟨List.getElem?_concat_length, ?_, ?_⟩
  · rw [moment_concat (Nat.le_refl _), moment_length]
    exact hloaded
  · rw [moment_concat (Nat.le_refl _), moment_length]
    exact hgiven

theorem invalidate_not_mem_drop_concat {i : Nat} (h : i ≤ events.length) :
    .invalidate ∉ (events ++ [event]).drop i ↔
      .invalidate ∉ events.drop i ∧ .invalidate ≠ event := by
  rw [List.drop_append_of_le_length h, List.mem_append, List.mem_singleton, not_or]

/-! ### What is remembered -/

/-- What is remembered was loaded and has not been forgotten since. Whatever else was loaded
and not forgotten since had grown too old when that was loaded. -/
structure Remembers (d : WordDesk) (events : List DeskEvent) (d' : WordDesk) : Prop where
  past : ∀ l kind e, d'.cache.entry l kind = some e → e.loadedAt ≤ d'.now
  loaded : ∀ l kind e, d'.cache.entry l kind = some e →
    ∃ i, d.Loads events l kind i e.words ∧ .invalidate ∉ events.drop i ∧
      e.loadedAt = (d.moment events i).now
  last : ∀ l kind i words, d.Loads events l kind i words → .invalidate ∉ events.drop i →
    ∃ e, d'.cache.entry l kind = some e ∧
      (e.words = words ∧ e.loadedAt = (d.moment events i).now ∨
        (d.moment events i).now + d.cache.ttl ≤ e.loadedAt)

/-- An event that neither loads nor forgets leaves what is remembered as it is. -/
theorem Remembers.quiet (h : d.Remembers events (d.run events)) (hkept : .invalidate ≠ event)
    (hquiet : ∀ l kind words, event = .lookup l kind → ((d.run events).ask l kind).1.loaded →
      (d.run events).source l kind ≠ .ok words)
    {d' : WordDesk} (hcache : d'.cache = (d.run events).cache)
    (hnow : (d.run events).now ≤ d'.now) : d.Remembers (events ++ [event]) d' where
  past l kind e he := Nat.le_trans (h.past l kind e (hcache ▸ he)) hnow
  loaded l kind e he := by
    obtain ⟨i, hloads, hdrop, htime⟩ := h.loaded l kind e (hcache ▸ he)
    have hle := Nat.le_of_lt hloads.lt
    refine ⟨i, hloads.concat event, (invalidate_not_mem_drop_concat hle).2 ⟨hdrop, hkept⟩, ?_⟩
    rw [moment_concat hle]
    exact htime
  last l kind i words hloads hdrop := by
    rcases hloads.before_or_last with hloads | ⟨-, hevent, hloaded, hgiven⟩
    · have hle := Nat.le_of_lt hloads.lt
      rw [hcache, moment_concat hle]
      exact h.last l kind i words hloads ((invalidate_not_mem_drop_concat hle).1 hdrop).1
    · exact (hquiet l kind words hevent hloaded hgiven).elim

/-- What is remembered after words have been loaded are these words, or what was remembered
before of others. -/
theorem entry_of_load
    (hask : d.ask l kind = (⟨.ok words, true⟩, d.cache.remember d.now l kind words))
    {l' : Language} {kind' : WordKind} {e : CachedWords}
    (he : (d.after (.lookup l kind)).cache.entry l' kind' = some e) :
    (l' = l ∧ kind' = kind) ∧ e = ⟨words, d.now⟩ ∨ d.cache.entry l' kind' = some e := by
  by_cases hsame : l' = l ∧ kind' = kind
  · rw [after, hask] at he
    exact .inl ⟨hsame, (Option.some.inj ((if_pos hsame).symm.trans he)).symm⟩
  · exact .inr (entry_after_lookup hsame ▸ he)

/-- A look-up that loads words remembers them instead of any that had grown too old. -/
theorem Remembers.load (h : d.Remembers events (d.run events)) (hstale : (d.run events).Stale l kind)
    (hgiven : (d.run events).source l kind = .ok words)
    (hask : (d.run events).ask l kind =
      (⟨.ok words, true⟩, (d.run events).cache.remember (d.run events).now l kind words)) :
    d.Remembers (events ++ [.lookup l kind]) ((d.run events).after (.lookup l kind)) := by
  have hown : ((d.run events).after (.lookup l kind)).cache.entry l kind =
      some ⟨words, (d.run events).now⟩ := by
    rw [after, hask]
    exact if_pos ⟨rfl, rfl⟩
  have hloads : d.Loads (events ++ [.lookup l kind]) l kind events.length words :=
    loads_last (by rw [hask]) hgiven
  refine ⟨fun l' kind' e he => ?_, fun l' kind' e he => ?_, fun l' kind' i words' hearlier hdrop => ?_⟩
  · rcases entry_of_load hask he with ⟨-, rfl⟩ | he
    · exact Nat.le_refl _
    · exact h.past l' kind' e he
  · rcases entry_of_load hask he with ⟨⟨rfl, rfl⟩, rfl⟩ | he
    · refine ⟨events.length, hloads, by simp, ?_⟩
      rw [moment_concat (Nat.le_refl _), moment_length]
    · obtain ⟨i, hearlier, hdrop, htime⟩ := h.loaded l' kind' e he
      have hle := Nat.le_of_lt hearlier.lt
      refine ⟨i, hearlier.concat _, (invalidate_not_mem_drop_concat hle).2 ⟨hdrop, by simp⟩, ?_⟩
      rw [moment_concat hle]
      exact htime
  · rcases hearlier.before_or_last with hearlier | ⟨rfl, hevent, -, hgiven'⟩
    · have hle := Nat.le_of_lt hearlier.lt
      obtain ⟨e, he, hlast⟩ :=
        h.last l' kind' i words' hearlier ((invalidate_not_mem_drop_concat hle).1 hdrop).1
      rw [moment_concat hle]
      by_cases hsame : l' = l ∧ kind' = kind
      · -- The earlier load had been remembered, or was older still; now it is too old anyway.
        obtain ⟨rfl, rfl⟩ := hsame
        refine ⟨_, hown, .inr ?_⟩
        have hold := hstale e he
        have hpast := h.past l' kind' e he
        rw [ttl_run] at hold
        dsimp only
        omega
      · exact ⟨e, (entry_after_lookup hsame).trans he, hlast⟩
    · obtain ⟨rfl, rfl⟩ := DeskEvent.lookup.inj hevent
      obtain rfl := Except.ok.inj (hgiven.symm.trans hgiven')
      refine ⟨_, hown, .inl ⟨rfl, ?_⟩⟩
      rw [moment_concat (Nat.le_refl _), moment_length]

theorem Remembers.after (h : d.Remembers events (d.run events)) (event : DeskEvent) :
    d.Remembers (events ++ [event]) ((d.run events).after event) := by
  cases event with
  | change source =>
      exact h.quiet (by simp) (fun _ _ _ hevent => by cases hevent) rfl (Nat.le_refl _)
  | wait time =>
      exact h.quiet (by simp) (fun _ _ _ hevent => by cases hevent) rfl (Nat.le_add_right _ _)
  | invalidate =>
      refine ⟨fun _ _ _ he => (by cases he), fun _ _ _ he => (by cases he),
        fun l kind i words hloads hdrop => ?_⟩
      rcases hloads.before_or_last with hloads | ⟨-, hevent, -, -⟩
      · exact (((invalidate_not_mem_drop_concat (Nat.le_of_lt hloads.lt)).1 hdrop).2 rfl).elim
      · cases hevent
  | lookup l kind =>
      rcases (d.run events).ask_cases l kind with ⟨e, -, -, hask⟩ | ⟨hstale, words, hgiven, hask⟩ |
        ⟨-, cause, hgiven, hask⟩
      · refine h.quiet (by simp) (fun l' kind' words hevent hloaded => ?_) ?_ (Nat.le_refl _)
        · obtain ⟨rfl, rfl⟩ := DeskEvent.lookup.inj hevent
          rw [hask] at hloaded
          cases hloaded
        · rw [WordDesk.after, hask]
      · exact h.load hstale hgiven hask
      · refine h.quiet (by simp) (fun l' kind' words hevent _ hwords => ?_) ?_ (Nat.le_refl _)
        · obtain ⟨rfl, rfl⟩ := DeskEvent.lookup.inj hevent
          cases hgiven.symm.trans hwords
        · rw [WordDesk.after, hask]

theorem remembers_run (ttl : Nat) (source : WordSource) (events : List DeskEvent) :
    (start ttl source).Remembers events ((start ttl source).run events) := by
  refine run_induction (P := (start ttl source).Remembers) _ ?_ (fun _ event h => h.after event)
    events
  refine ⟨fun _ _ _ he => (by cases he), fun _ _ _ he => (by cases he),
    fun _ _ i _ hloads => ?_⟩
  exact (Nat.not_lt_zero i hloads.lt).elim

/-! ### What a look-up is answered -/

/-- What is remembered and young enough was loaded by a look-up that lasts. -/
theorem Remembers.lasting (h : d.Remembers events (d.run events)) {e : CachedWords}
    (hfound : (d.run events).cache.entry l kind = some e)
    (hyoung : (d.run events).now - e.loadedAt < (d.run events).cache.ttl) :
    ∃ i, d.Lasting events l kind i e.words := by
  obtain ⟨i, hloads, hdrop, htime⟩ := h.loaded l kind e hfound
  rw [htime, ttl_run] at hyoung
  exact ⟨i, hloads, hdrop, hyoung⟩

/-- What a load that lasts was given is remembered, and young enough. -/
theorem Remembers.entry (h : d.Remembers events (d.run events)) {i : Nat}
    (hlasting : d.Lasting events l kind i words) :
    ∃ e, (d.run events).cache.entry l kind = some e ∧ e.words = words ∧
      (d.run events).now - e.loadedAt < (d.run events).cache.ttl := by
  obtain ⟨hloads, hdrop, hyoung⟩ := hlasting
  obtain ⟨e, hfound, ⟨hwords, htime⟩ | hlater⟩ := h.last l kind i words hloads hdrop
  · refine ⟨e, hfound, hwords, ?_⟩
    rw [htime, ttl_run]
    exact hyoung
  · have hpast := h.past l kind e hfound
    omega

/-- A look-up that comes after any history is answered with the words that an earlier look-up
of this language and kind was given by the source, less than the time to live ago, if nothing
has been forgotten since; the source is not asked then. If there has been no such look-up it
is asked, and the answer is what it gives now, or its failure. If the source fails to give the
words, the look-up changes nothing at all; and it never changes what is remembered of other
words. -/
theorem ask_of_history (ttl : Nat) (source : WordSource) (events : List DeskEvent) (l : Language)
    (kind : WordKind) :
    let d := start ttl source
    let now := d.run events
    (∀ i words, d.Lasting events l kind i words → (now.ask l kind).1 = ⟨.ok words, false⟩) ∧
    ((¬∃ i words, d.Lasting events l kind i words) →
      (now.ask l kind).1 = ⟨now.source l kind, true⟩) ∧
    ((now.ask l kind).1.loaded = false ↔ ∃ i words, d.Lasting events l kind i words) ∧
    (∀ cause, now.source l kind = .error cause → now.after (.lookup l kind) = now) ∧
    ∀ l' kind', ¬(l' = l ∧ kind' = kind) →
      (now.after (.lookup l kind)).cache.entry l' kind' = now.cache.entry l' kind' := by
  intro d now
  have hremembers : d.Remembers events now := remembers_run ttl source events
  have hserved : ∀ i words, d.Lasting events l kind i words →
      (now.ask l kind).1 = ⟨.ok words, false⟩ := by
    intro i words hlasting
    obtain ⟨e, hfound, rfl, hyoung⟩ := hremembers.entry hlasting
    rcases now.ask_cases l kind with ⟨e', hfound', -, hask⟩ | ⟨hstale, -⟩ | ⟨hstale, -⟩
    · obtain rfl := Option.some.inj (hfound.symm.trans hfound')
      rw [hask]
    · exact absurd hyoung (Nat.not_lt.2 (hstale e hfound))
    · exact absurd hyoung (Nat.not_lt.2 (hstale e hfound))
  have hasked : (¬∃ i words, d.Lasting events l kind i words) →
      (now.ask l kind).1 = ⟨now.source l kind, true⟩ := by
    intro hnone
    rcases now.ask_cases l kind with ⟨e, hfound, hyoung, -⟩ | ⟨-, words, hgiven, hask⟩ |
      ⟨-, cause, hgiven, hask⟩
    · obtain ⟨i, hlasting⟩ := hremembers.lasting hfound hyoung
      exact (hnone ⟨i, e.words, hlasting⟩).elim
    · rw [hask, hgiven]
    · rw [hask, hgiven]
  refine ⟨hserved, hasked, ⟨fun hloaded => ?_, fun ⟨i, words, hlasting⟩ => ?_⟩,
    fun cause => after_lookup_of_error, fun l' kind' => entry_after_lookup⟩
  · refine Classical.byContradiction fun hnone => ?_
    rw [hasked hnone] at hloaded
    cases hloaded
  · rw [hserved i words hlasting]

end WordDesk

end WordDuel
