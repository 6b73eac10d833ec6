import WordDuel.Proofs.Refinement
import WordDuel.Proofs.Scene
import WordDuel.Proofs.Sight
/-!
# WordDuel.Proofs.Recall

**What a session has stored.** While calls are made one after the other, a duel in memory is
what the attempts since its creation have made of it (`stored_worldAfter`), and none is there
that no call has created (`exists_founded`). So an answer that shows a room shows what there is
to see after these attempts, and a room that is full stays as full as it is.
-/

namespace WordDuel

/-! ### Rosters -/

namespace Duel

/-- The room has two members, and the player is neither of them. -/
def Excludes (duel : Duel) (player : PlayerId) : Prop :=
  duel.room.players.length = 2 ∧ player ∉ duel.room.players

/-- Nobody comes into a room that has two members, and nobody leaves it. -/
theorem Excludes.of_prefix {duel duel' : Duel} {player : PlayerId} (h : duel.Excludes player)
    (hwf : duel'.WellFormed) (hplayers : duel.room.players <+: duel'.room.players) :
    duel'.Excludes player := by
  have hle : duel'.room.players.length ≤ duel.room.players.length := by
    rw [h.1]
    exact hwf.size.2
  have hsame := hplayers.eq_of_length_le hle
  rw [Excludes, ← hsame]
  exact h

theorem WellFormed.course {duel : Duel} (h : duel.WellFormed) (plies : List Ply) :
    (duel.course plies).WellFormed := by
  induction plies generalizing duel with
  | nil => exact h
  | cons ply plies ih => exact ih (h.after ply)

theorem WellFormed.players_course {duel : Duel} (h : duel.WellFormed) (plies : List Ply) :
    duel.room.players <+: (duel.course plies).room.players := by
  induction plies generalizing duel with
  | nil => exact List.prefix_refl _
  | cons ply plies ih =>
      have hafter : duel.room.players <+: (ply.after duel).room.players := by
        rcases ply.after_cases duel with hsame | ⟨events, heffect⟩
        · exact hsame.symm ▸ List.prefix_refl _
        · exact (h.grows_effect heffect).players
      exact hafter.trans (ih (h.after ply))

end Duel

namespace Referee.Creates

variable {referee : Referee} {room : RoomId} {code : String} {creator : PlayerId} {duel : Duel}
  {events : List Event}

theorem exists_createRoom (h : referee.Creates room code creator duel events) :
    ∃ language, duel = (referee.createRoom room language creator).1 := by
  obtain ⟨language, -, hcreate⟩ := h
  exact ⟨language, (Prod.mk.inj hcreate).1.symm⟩

theorem wellFormed (h : referee.Creates room code creator duel events) : duel.WellFormed := by
  obtain ⟨language, rfl⟩ := h.exists_createRoom
  exact Duel.wellFormed_createRoom referee room language creator

theorem mem_players (h : referee.Creates room code creator duel events) :
    creator ∈ duel.room.players := by
  obtain ⟨language, rfl⟩ := h.exists_createRoom
  exact Duel.mem_players_createRoom referee room language creator

theorem shows_course (h : referee.Creates room code creator duel events) (plies : List Ply)
    {player : PlayerId} (hseen : player ∈ (duel.course plies).room.players ∨
      ¬(duel.course plies).room.isFull) :
    ((duel.course plies).viewFor player).Shows (duel.course plies) (duel.submissions plies)
      player := by
  obtain ⟨language, rfl⟩ := h.exists_createRoom
  exact referee.shows_course room language creator plies hseen

end Referee.Creates

/-! ### Looking -/

section Looking

variable {exclusive : Bool} {w : World Store.Memory} {room : RoomId} {player : PlayerId}

/-- Who is shown a room has looked at the stored duel, and is on the roster or finds a place
there. -/
theorem seen_of_get {view : RoomView}
    (h : ((Service.inMemory exclusive).get w room player).map
      (fun duel => Reply.view (duel.viewFor player)) = .ok (.view view)) :
    ∃ duel, w.stored.get? room = some duel ∧ view = duel.viewFor player ∧
      (player ∈ duel.room.players ∨ ¬duel.room.isFull) := by
  cases hstored : w.stored.get? room with
  | none => simp [Service.get, Service.inMemory, Store.memory, hstored, Except.map] at h
  | some duel =>
      rw [Service.get_of_stored hstored] at h
      split at h
      · cases h
      · next hallowed =>
        refine ⟨duel, rfl, (Reply.view.inj (Except.ok.inj h)).symm, ?_⟩
        by_cases hplayer : player ∈ duel.room.players
        · exact .inl hplayer
        · exact .inr (by simpa [Room.isMember, hplayer] using hallowed)

theorem get_of_excludes {duel : Duel} (hstored : w.stored.get? room = some duel)
    (hexcludes : duel.Excludes player) :
    (Service.inMemory exclusive).get w room player =
      .error (.refused (.roomAccessDenied room)) := by
  obtain ⟨htwo, hplayer⟩ := hexcludes
  rw [Service.get_of_stored hstored, if_pos]
  simp [Room.isMember, Room.isFull, maxPlayers, htwo, hplayer]

end Looking

/-! ### One call after the other -/

/-- What a call attempts to do to a room, if it gets the lock. -/
def Ask.ply? (room : RoomId) : Ask → Option Ply
  | .request referee grant (.change changed change) =>
    if changed = room ∧ grant = .granted then some ⟨referee, change⟩ else none
  | _ => none

theorem stored_run (exclusive : Bool) (v : World Store.Memory) (room : RoomId) (ply : Ply)
    (other : RoomId) :
    (((Service.inMemory exclusive).mutation room (ply.change.move ply.referee)).run v).1.stored.get?
        other =
      if other = room then (v.stored.get? room).map ply.after else v.stored.get? other := by
  -- An attempt that fails leaves the duel as it is.
  have hsame (hafter : (v.stored.get? room).map ply.after = v.stored.get? room) :
      v.stored.get? other =
        if other = room then (v.stored.get? room).map ply.after else v.stored.get? other := by
    split
    · next hother => rw [hafter, hother]
    · rfl
  rw [run_inMemory]
  cases hfound : v.stored.get? room with
  | none =>
      rw [hfound] at hsame
      exact hsame rfl
  | some duel =>
      rw [hfound, Option.map_some] at hsame
      simp only [Service.attemptOn, Option.map_some]
      cases hplay : ply.play? duel with
      | error failure => exact hsame (congrArg some (Ply.of_play?_error hplay).1)
      | ok played =>
          rw [(Ply.of_play?_ok hplay).1]
          show (v.stored.insert room played.1).get? other = _
          split
          · next hother =>
            rw [hother]
            exact SortedMap.get?_insert_self _ _ _
          · next hother => exact SortedMap.get?_insert_of_ne _ _ hother

/-- A call does to a stored duel what it attempts. -/
theorem stored_answer (exclusive : Bool) {v : World Store.Memory} {room : RoomId} {duel : Duel}
    (hstored : v.stored.get? room = some duel) {ask : Ask} (hask : room ∉ ask.created?) :
    ((Service.inMemory exclusive).answer v ask).1.stored.get? room =
      some (duel.course (ask.ply? room).toList) := by
  cases ask with
  | request referee grant request =>
      cases request with
      | create created code creator =>
          have hne : room ≠ created := fun heq => hask (congrArg some heq.symm)
          rw [Service.answer_create]
          rcases create_inMemory exclusive v referee created code creator with
            hcreate | ⟨language, hcreate⟩
          · rw [hcreate]
            exact hstored
          · rw [hcreate]
            exact (SortedMap.get?_insert_of_ne _ _ hne).trans hstored
      | get looked player => exact hstored
      | change changed change =>
          rw [Service.answer_change]
          cases grant with
          | late =>
              rw [Ask.ply?, if_neg (by simp)]
              exact hstored
          | failed cause =>
              rw [Ask.ply?, if_neg (by simp)]
              exact hstored
          | granted =>
              refine (stored_run exclusive v changed ⟨referee, change⟩ room).trans ?_
              rw [Ask.ply?]
              by_cases hroom : changed = room
              · subst hroom
                rw [if_pos rfl, if_pos ⟨rfl, rfl⟩, hstored]
                rfl
              · rw [if_neg (Ne.symm hroom), if_neg fun h => hroom h.1]
                exact hstored
  | load looked => exact hstored
  | loadRound looked number => exact hstored

theorem stored_worldAfter (exclusive : Bool) {v : World Store.Memory} {room : RoomId}
    {duel : Duel} (hstored : v.stored.get? room = some duel) {asks : List Ask}
    (hnew : room ∉ asks.filterMap Ask.created?) :
    ((Service.inMemory exclusive).worldAfter v asks).stored.get? room =
      some (duel.course (asks.filterMap (Ask.ply? room))) := by
  induction asks generalizing v duel with
  | nil => exact hstored
  | cons ask asks ih =>
      have hask : room ∉ ask.created? := fun hmem =>
        hnew (List.mem_filterMap.2 ⟨ask, List.mem_cons_self, hmem⟩)
      have hrest : room ∉ asks.filterMap Ask.created? := fun hmem => by
        obtain ⟨later, hlater, hcreated⟩ := List.mem_filterMap.1 hmem
        exact hnew (List.mem_filterMap.2 ⟨later, List.mem_cons_of_mem _ hlater, hcreated⟩)
      have hlast := ih (stored_answer exclusive hstored hask) hrest
      rw [List.filterMap_cons]
      cases hply : ask.ply? room <;> rw [hply] at hlast <;> exact hlast

/-- A room that was not there has been created by the call. -/
theorem creates_of_answer {exclusive : Bool} {v : World Store.Memory} {room : RoomId}
    {duel : Duel} {ask : Ask} (hnone : v.stored.get? room = none)
    (hstored : ((Service.inMemory exclusive).answer v ask).1.stored.get? room = some duel) :
    ∃ referee grant code creator events, ask = .request referee grant (.create room code creator) ∧
      referee.Creates room code creator duel events := by
  have hmem : room ∈ ask.created? := by
    refine Classical.byContradiction fun hmem => ?_
    cases hstored.symm.trans ((stores_answer exclusive v ask).get?_eq_none hnone hmem)
  cases ask with
  | request referee grant request =>
      cases request with
      | create created code creator =>
          obtain rfl := Option.some.inj hmem
          rw [Service.answer_create] at hstored
          simp only [Service.create] at hstored
          cases hestablish : (Service.inMemory exclusive).establish referee v created code
              creator with
          | error failure =>
              rw [hestablish] at hstored
              cases hstored.symm.trans hnone
          | ok made =>
              obtain ⟨world, duel', events⟩ := made
              obtain ⟨hcreates, rfl⟩ := Service.creates_of_establish hestablish
              rw [hestablish] at hstored
              obtain rfl := Option.some.inj
                (hstored.symm.trans (SortedMap.get?_insert_self _ _ _))
              exact ⟨referee, grant, code, creator, events, rfl, hcreates⟩
      | get _ _ => cases hmem
      | change _ _ => cases hmem
  | load _ => cases hmem
  | loadRound _ _ => cases hmem

/-- One of some calls has created a room with a duel, and these were the attempts since. -/
def Founded (asks : List Ask) (room : RoomId) (created : Duel) (plies : List Ply) : Prop :=
  ∃ first referee grant code creator since events,
    asks = first ++ .request referee grant (.create room code creator) :: since ∧
    referee.Creates room code creator created events ∧
    plies = since.filterMap (Ask.ply? room)

/-- Every room that is there after some calls has been created by one of them. -/
theorem exists_founded (exclusive : Bool) {v : World Store.Memory} {room : RoomId} {duel : Duel}
    {asks : List Ask} (hnone : v.stored.get? room = none)
    (hdistinct : (asks.filterMap Ask.created?).Nodup)
    (hstored : ((Service.inMemory exclusive).worldAfter v asks).stored.get? room = some duel) :
    ∃ created plies, Founded asks room created plies ∧ duel = created.course plies := by
  induction asks generalizing v with
  | nil => cases hstored.symm.trans hnone
  | cons ask asks ih =>
      rw [Service.worldAfter_cons] at hstored
      cases hfirst : ((Service.inMemory exclusive).answer v ask).1.stored.get? room with
      | none =>
          have hrest : (asks.filterMap Ask.created?).Nodup :=
            hdistinct.sublist ((List.sublist_cons_self ask asks).filterMap _)
          obtain ⟨created, plies, hfounded, hduel⟩ := ih hfirst hrest hstored
          obtain ⟨first, referee, grant, code, creator, since, events, rfl, hcreates, hplies⟩ :=
            hfounded
          exact ⟨created, plies, ⟨ask :: first, referee, grant, code, creator, since, events, rfl,
            hcreates, hplies⟩, hduel⟩
      | some created =>
          obtain ⟨referee, grant, code, creator, events, rfl, hcreates⟩ :=
            creates_of_answer hnone hfirst
          have hnew : room ∉ asks.filterMap Ask.created? := (List.nodup_cons.1 hdistinct).1
          have hcourse := stored_worldAfter exclusive hfirst hnew
          have hduel := Option.some.inj (hstored.symm.trans hcourse)
          exact ⟨created, _, ⟨[], referee, grant, code, creator, asks, events, rfl, hcreates, rfl⟩,
            hduel⟩

/-! ### Tables -/

section Tables

variable {exclusive : Bool} {sink : Sink} {room : RoomId} {player : PlayerId}

/-- An answer that shows a player a room shows what there is to see after the attempts since
the room was created. -/
theorem shows_of_answer {earlier later : List Ask} {referee : Referee} {grant : Grant}
    {request : Request} {view : RoomView}
    (horderly : Orderly .empty (earlier ++ .request referee grant request :: later))
    (hsmall : ((Service.inMemory exclusive).worldAfter ⟨.empty, sink⟩
      (earlier ++ .request referee grant request :: later)).stored.Small)
    (hplayer : request.player? = some player)
    (htold : ((Service.inTables exclusive).answer
        ((Service.inTables exclusive).worldAfter ⟨.empty, sink⟩ earlier)
        (.request referee grant request)).2 = .reply (.ok (.view view))) :
    ∃ created plies,
      Founded (earlier ++ [.request referee grant request]) request.room created plies ∧
      view.Shows (created.course plies) (created.submissions plies) player := by
  obtain ⟨hbefore, -, hsame⟩ := (mirrors_empty sink).next horderly hsmall
  rw [hsame] at htold
  -- Looking at the room right after the answer shows the same.
  have hget := get_of_view hbefore.kept hplayer htold
  rw [Service.answer_get] at hget
  obtain ⟨duel, hstored, hview, hseen⟩ := seen_of_get (Told.reply.inj hget)
  have hdistinct : ((earlier ++ [Ask.request referee grant request]).filterMap
      Ask.created?).Nodup := by
    refine horderly.distinct.sublist (List.Sublist.filterMap _ ?_)
    exact (List.singleton_sublist.2 List.mem_cons_self).append_left earlier
  have hlast : ((Service.inMemory exclusive).worldAfter ⟨.empty, sink⟩
      (earlier ++ [.request referee grant request])).stored.get? request.room = some duel := by
    rw [Service.worldAfter_append]
    exact hstored
  obtain ⟨created, plies, hfounded, rfl⟩ := exists_founded exclusive rfl hdistinct hlast
  refine ⟨created, plies, hfounded, ?_⟩
  obtain ⟨first, referee', grant', code, creator, since, events, -, hcreates, -⟩ := hfounded
  rw [hview]
  exact hcreates.shows_course plies hseen

/-- Once a room has two members everybody else is refused. -/
theorem denied_of_excludes {first between later : List Ask} {duel : Duel}
    (horderly : Orderly .empty (first ++ (between ++ later)))
    (hsmall : ((Service.inMemory exclusive).worldAfter ⟨.empty, sink⟩
      (first ++ (between ++ later))).stored.Small)
    (hload : (Service.inTables exclusive).store.load
      ((Service.inTables exclusive).worldAfter ⟨.empty, sink⟩ first).stored room = .ok (some duel))
    (hexcludes : duel.Excludes player) :
    (Service.inTables exclusive).get
        ((Service.inTables exclusive).worldAfter ⟨.empty, sink⟩ (first ++ between)) room player =
      .error (.refused (.roomAccessDenied room)) := by
  obtain ⟨hfirst, hrest⟩ := (mirrors_empty sink).after horderly hsmall
  rw [← List.append_assoc] at horderly hsmall
  obtain ⟨hbetween, -⟩ := (mirrors_empty sink).after horderly hsmall
  have hstored := Except.ok.inj ((hfirst.load room).symm.trans hload)
  have hnew : room ∉ between.filterMap Ask.created? := by
    intro hmem
    have hcreated : room ∈ (between ++ later).filterMap Ask.created? := by
      rw [List.filterMap_append]
      exact List.mem_append_left _ hmem
    cases hstored.symm.trans (hrest.new room hcreated)
  have hwf := (hfirst.kept room duel hstored).2.wellFormed
  have hplayers := hwf.players_course (between.filterMap (Ask.ply? room))
  have hlast := stored_worldAfter exclusive hstored hnew
  rw [← Service.worldAfter_append] at hlast
  rw [hbetween.get]
  exact get_of_excludes hlast (hexcludes.of_prefix (hwf.course _) hplayers)

end Tables

end WordDuel
