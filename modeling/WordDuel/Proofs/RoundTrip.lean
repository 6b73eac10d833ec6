import WordDuel.Proofs.Codec
import WordDuel.Proofs.Identifiers
import WordDuel.Storage.Records
import WordDuel.Wire.Event
import WordDuel.Wire.Refusal
/-!
# WordDuel.Proofs.RoundTrip

**Whatever is written as JSON text reads back.** A record reads back field by field, a choice by
the name of its alternative; texts and letters are arbitrary, and numbers need only fit into
their 32 bits. So two different values never have the same text (`wire_roundTrips`).
-/

namespace WordDuel

/-! ### Numbers of 32 bits -/

/-- A number that fits into 32 bits without a sign. -/
def FitsUnsigned (n : Nat) : Prop := n ≤ 4294967295

/-- A number that fits into 32 bits with a sign. -/
def FitsSigned (n : Int) : Prop := -2147483648 ≤ n ∧ n ≤ 2147483647

def Score.Fits (score : Score) : Prop := FitsSigned score.points

def Progress.Fits (progress : Progress) : Prop := FitsUnsigned progress.attemptsUsed

def GuessView.Fits (guess : GuessView) : Prop := FitsUnsigned guess.attempt

/-- All numbers in a view of a round fit into 32 bits. -/
structure RoundView.Fits (round : RoundView) : Prop where
  number : FitsUnsigned round.number
  wordLength : FitsUnsigned round.wordLength
  maxAttempts : FitsUnsigned round.maxAttempts
  players : ∀ progress ∈ round.players, progress.Fits
  guesses : ∀ guess ∈ round.guesses, guess.Fits

/-- All numbers in a view of a room fit into 32 bits. -/
structure RoomView.Fits (room : RoomView) : Prop where
  players : ∀ score ∈ room.players, score.Fits
  currentRound : ∀ round ∈ room.currentRound, round.Fits

/-- All numbers in an event fit into 32 bits. -/
def Event.Fits : Event → Prop
  | .roomCreated _ _ | .playerJoined _ _ => True
  | .roundStarted number maxAttempts => FitsUnsigned number ∧ FitsUnsigned maxAttempts
  | .roundFinished number => FitsUnsigned number
  | .scoresUpdated scores => ∀ score ∈ scores, score.Fits

def Envelope.Fits (envelope : Envelope) : Prop := envelope.event.Fits

/-- All numbers in a refusal fit into 32 bits. -/
def Refusal.Fits : Refusal → Prop
  | .invalidGuessLength expected actual => FitsUnsigned expected ∧ FitsUnsigned actual
  | .noAttemptsLeft maxAttempts => FitsUnsigned maxAttempts
  | _ => True

namespace Codec

/-! ### Names -/

theorem ReadsBack.uuid (u : Uuid) : ReadsBack u := ⟨.string _, Uuid.ofText?_toText u⟩

theorem ReadsBack.language (l : Language) : ReadsBack l := by
  cases l <;> exact ⟨.string _, by decide⟩

theorem ReadsBack.roomStatus (s : RoomStatus) : ReadsBack s := by
  cases s <;> exact ⟨.string _, by decide⟩

theorem ReadsBack.roundStatus (s : RoundStatus) : ReadsBack s := by
  cases s <;> exact ⟨.string _, by decide⟩

theorem ReadsBack.standing (s : Standing) : ReadsBack s := by
  cases s <;> exact ⟨.string _, by decide⟩

/-! ### Views -/

theorem ReadsBack.score {s : Score} (h : s.Fits) : ReadsBack s := by
  have hplayer := ReadsBack.uuid s.player
  have hpoints := ReadsBack.int h
  have hfields : (encode s).fields? ["player_id", "score"] =
      some [some (encode s.player), some (encode s.points)] :=
    fields?_ofMembers [("player_id", _), ("score", _)] (by simp)
  refine ⟨plain_ofMembers (by simp [hplayer.plain, hpoints.plain]), ?_⟩
  show ((encode s).fields? ["player_id", "score"]).bind _ = some s
  rw [hfields]
  simp [required?_encode hplayer, required?_encode hpoints]

theorem ReadsBack.progress {p : Progress} (h : p.Fits) : ReadsBack p := by
  have hplayer := ReadsBack.uuid p.player
  have hstanding := ReadsBack.standing p.standing
  have hattempts := ReadsBack.nat h
  have hfields : (encode p).fields? ["player_id", "status", "attempts_used"] =
      some [some (encode p.player), some (encode p.standing), some (encode p.attemptsUsed)] :=
    fields?_ofMembers [("player_id", _), ("status", _), ("attempts_used", _)] (by simp)
  refine ⟨plain_ofMembers (by simp [hplayer.plain, hstanding.plain, hattempts.plain]), ?_⟩
  show ((encode p).fields? ["player_id", "status", "attempts_used"]).bind _ = some p
  rw [hfields]
  simp [required?_encode hplayer, required?_encode hstanding, required?_encode hattempts]

theorem ReadsBack.guess {g : GuessView} (h : g.Fits) : ReadsBack g := by
  have hplayer := ReadsBack.uuid g.player
  have hattempt := ReadsBack.nat h
  have hword := ReadsBackIfAny.text g.word
  have hletters := ReadsBack.list fun l (_ : l ∈ g.letters) => .letter l
  have hcreated := ReadsBack.text g.createdAt
  have hfields : (encode g).fields? ["player_id", "attempt_number", "word", "letters",
      "created_at"] = some [some (encode g.player), some (encode g.attempt),
        some (encode g.word), some (encode g.letters), some (encode g.createdAt)] :=
    fields?_ofMembers [("player_id", _), ("attempt_number", _), ("word", _), ("letters", _),
      ("created_at", _)] (by simp)
  refine ⟨plain_ofMembers (by simp [hplayer.plain, hattempt.plain, hword.plain, hletters.plain,
    hcreated.plain]), ?_⟩
  show ((encode g).fields? ["player_id", "attempt_number", "word", "letters",
    "created_at"]).bind _ = some g
  rw [hfields]
  simp [required?_encode hplayer, required?_encode hattempt, optional?_encode hword,
    required?_encode hletters, required?_encode hcreated]

theorem ReadsBack.round {r : RoundView} (h : r.Fits) : ReadsBack r := by
  have hnumber := ReadsBack.nat h.number
  have hlength := ReadsBack.nat h.wordLength
  have hattempts := ReadsBack.nat h.maxAttempts
  have hstatus := ReadsBack.roundStatus r.status
  have htarget := ReadsBackIfAny.text r.target
  have hplayers := ReadsBack.list fun p hp => .progress (h.players p hp)
  have hguesses := ReadsBack.list fun g hg => .guess (h.guesses g hg)
  have hstarted := ReadsBack.text r.startedAt
  have hfinished := ReadsBackIfAny.text r.finishedAt
  have hfields : (encode r).fields? ["number", "word_length", "max_attempts", "status",
      "target_word", "players", "guesses", "started_at", "finished_at"] =
        some [some (encode r.number), some (encode r.wordLength), some (encode r.maxAttempts),
          some (encode r.status), some (encode r.target), some (encode r.players),
          some (encode r.guesses), some (encode r.startedAt), some (encode r.finishedAt)] :=
    fields?_ofMembers [("number", _), ("word_length", _), ("max_attempts", _), ("status", _),
      ("target_word", _), ("players", _), ("guesses", _), ("started_at", _), ("finished_at", _)]
      (by simp)
  refine ⟨plain_ofMembers (by simp [hnumber.plain, hlength.plain, hattempts.plain, hstatus.plain,
    htarget.plain, hplayers.plain, hguesses.plain, hstarted.plain, hfinished.plain]), ?_⟩
  show ((encode r).fields? ["number", "word_length", "max_attempts", "status", "target_word",
    "players", "guesses", "started_at", "finished_at"]).bind _ = some r
  rw [hfields]
  simp [required?_encode hnumber, required?_encode hlength, required?_encode hattempts,
    required?_encode hstatus, optional?_encode htarget, required?_encode hplayers,
    required?_encode hguesses, required?_encode hstarted, optional?_encode hfinished]

theorem ReadsBack.room {r : RoomView} (h : r.Fits) : ReadsBack r := by
  have hid := ReadsBack.uuid r.id
  have hlanguage := ReadsBack.language r.language
  have hstatus := ReadsBack.roomStatus r.status
  have hplayers := ReadsBack.list fun s hs => .score (h.players s hs)
  have hcurrent : ReadsBackIfAny r.currentRound :=
    ⟨fun round hround => .round (h.currentRound round hround), fun _ _ => nofun⟩
  have hcreated := ReadsBack.text r.createdAt
  have hfields : (encode r).fields? ["id", "language", "status", "players", "current_round",
      "created_at"] = some [some (encode r.id), some (encode r.language), some (encode r.status),
        some (encode r.players), some (encode r.currentRound), some (encode r.createdAt)] :=
    fields?_ofMembers [("id", _), ("language", _), ("status", _), ("players", _),
      ("current_round", _), ("created_at", _)] (by simp)
  refine ⟨plain_ofMembers (by simp [hid.plain, hlanguage.plain, hstatus.plain, hplayers.plain,
    hcurrent.plain, hcreated.plain]), ?_⟩
  show ((encode r).fields? ["id", "language", "status", "players", "current_round",
    "created_at"]).bind _ = some r
  rw [hfields]
  simp [required?_encode hid, required?_encode hlanguage, required?_encode hstatus,
    required?_encode hplayers, optional?_encode hcurrent, required?_encode hcreated]

/-! ### Events -/

/-- An alternative is written as an object with its name as the only key. -/
theorem plain_alternative {name : String} {members : List (String × Json)}
    (h : ∀ m ∈ members, m.2.Plain) : (Json.ofMembers [(name, .ofMembers members)]).Plain :=
  plain_ofMembers (by simpa using plain_ofMembers h)

theorem choice?_alternative (name : String) (content : Json) :
    (Json.ofMembers [(name, content)]).choice? = some (name, some content) := rfl

theorem fields?_single (name : String) (v : Json) :
    (Json.ofMembers [(name, v)]).fields? [name] = some [some v] :=
  fields?_ofMembers [(name, v)] (by simp)

theorem fields?_pair {name name' : String} (h : name ≠ name') (v v' : Json) :
    (Json.ofMembers [(name, v), (name', v')]).fields? [name, name'] = some [some v, some v'] :=
  fields?_ofMembers [(name, v), (name', v')] (by simp [h])

theorem ReadsBack.players (players : List PlayerId) : ReadsBack players :=
  .list fun player _ => .uuid player

theorem ReadsBack.event {e : Event} (h : e.Fits) : ReadsBack e := by
  cases e with
  | roomCreated player players =>
      have hplayer := ReadsBack.uuid player
      have hplayers := ReadsBack.players players
      have hencode : encode (Event.roomCreated player players) = .ofMembers [("RoomCreated",
        .ofMembers [("player_id", encode player), ("players", encode players)])] := rfl
      refine ⟨plain_alternative (by simp [hplayer.plain, hplayers.plain]), ?_⟩
      rw [hencode]
      simp only [decode?]
      simp [choice?_alternative, fields?_pair, required?_encode hplayer,
        required?_encode hplayers]
  | playerJoined player players =>
      have hplayer := ReadsBack.uuid player
      have hplayers := ReadsBack.players players
      have hencode : encode (Event.playerJoined player players) = .ofMembers [("PlayerJoined",
        .ofMembers [("player_id", encode player), ("players", encode players)])] := rfl
      refine ⟨plain_alternative (by simp [hplayer.plain, hplayers.plain]), ?_⟩
      rw [hencode]
      simp only [decode?]
      simp [choice?_alternative, fields?_pair, required?_encode hplayer,
        required?_encode hplayers]
  | roundStarted number maxAttempts =>
      have hnumber := ReadsBack.nat h.1
      have hattempts := ReadsBack.nat h.2
      have hencode : encode (Event.roundStarted number maxAttempts) = .ofMembers [("RoundStarted",
        .ofMembers [("round_number", encode number), ("max_attempts", encode maxAttempts)])] := rfl
      refine ⟨plain_alternative (by simp [hnumber.plain, hattempts.plain]), ?_⟩
      rw [hencode]
      simp only [decode?]
      simp [choice?_alternative, fields?_pair, required?_encode hnumber,
        required?_encode hattempts]
  | roundFinished number =>
      have hnumber := ReadsBack.nat h
      have hencode : encode (Event.roundFinished number) = .ofMembers [("RoundFinished",
        .ofMembers [("round_number", encode number)])] := rfl
      refine ⟨plain_alternative (by simp [hnumber.plain]), ?_⟩
      rw [hencode]
      simp only [decode?]
      simp [choice?_alternative, fields?_single, required?_encode hnumber]
  | scoresUpdated scores =>
      have hscores := ReadsBack.list fun s hs => .score (h s hs)
      have hencode : encode (Event.scoresUpdated scores) = .ofMembers [("ScoresUpdated",
        .ofMembers [("scores", encode scores)])] := rfl
      refine ⟨plain_alternative (by simp [hscores.plain]), ?_⟩
      rw [hencode]
      simp only [decode?]
      simp [choice?_alternative, fields?_single, required?_encode hscores]

theorem ReadsBack.envelope {e : Envelope} (h : e.Fits) : ReadsBack e := by
  have hroom := ReadsBack.uuid e.room
  have hevent := ReadsBack.event h
  have hfields : (encode e).fields? ["room_id", "event"] =
      some [some (encode e.room), some (encode e.event)] := fields?_pair (by decide) _ _
  refine ⟨plain_ofMembers (by simp [hroom.plain, hevent.plain]), ?_⟩
  show ((encode e).fields? ["room_id", "event"]).bind _ = some e
  rw [hfields]
  simp [required?_encode hroom, required?_encode hevent]

/-! ### Refusals -/

/-- A refusal with a single field reads back if its field does and its name is known. -/
theorem ReadsBack.single [Codec α] {refusalOf : α → Refusal} {value : α} {name field : String}
    (h : ReadsBack value) (hencode : encode (refusalOf value) = Refusal.single name field value)
    (hname : name ≠ "InvalidLanguage")
    (hcontent : ∀ content, Refusal.ofContent? name content =
      (Refusal.single? field content).map refusalOf) : ReadsBack (refusalOf value) := by
  have hvalue : Refusal.single? field (.ofMembers [(field, encode value)]) = some value := by
    simp [Refusal.single?, fields?_single, required?_encode h]
  refine ⟨?_, ?_⟩
  · rw [hencode]
    exact plain_alternative (by simp [h.plain])
  · rw [hencode]
    show Refusal.ofJson? _ = _
    simp [Refusal.ofJson?, Refusal.single, choice?_alternative, hname, hcontent, hvalue]

theorem ReadsBack.invalidGuessLength {expected actual : Nat} (hexpected : FitsUnsigned expected)
    (hactual : FitsUnsigned actual) : ReadsBack (Refusal.invalidGuessLength expected actual) := by
  have hexpected := ReadsBack.nat hexpected
  have hactual := ReadsBack.nat hactual
  have hencode : encode (Refusal.invalidGuessLength expected actual) =
    .ofMembers [("InvalidGuessLength",
      .ofMembers [("expected", encode expected), ("actual", encode actual)])] := rfl
  have hcontent : Refusal.ofContent? "InvalidGuessLength"
      (.ofMembers [("expected", encode expected), ("actual", encode actual)]) =
        some (.invalidGuessLength expected actual) := by
    rw [Refusal.ofContent?]
    simp [fields?_pair, required?_encode hexpected, required?_encode hactual]
  refine ⟨plain_alternative (by simp [hexpected.plain, hactual.plain]), ?_⟩
  rw [hencode]
  show Refusal.ofJson? _ = _
  simp [Refusal.ofJson?, choice?_alternative, hcontent]

theorem ReadsBack.refusal {r : Refusal} (h : r.Fits) : ReadsBack r := by
  cases r with
  | roomNotFound room => exact .single (.uuid room) rfl (by decide) fun _ => rfl
  | roomFull room => exact .single (.uuid room) rfl (by decide) fun _ => rfl
  | roomClosed room => exact .single (.uuid room) rfl (by decide) fun _ => rfl
  | roomBusy room => exact .single (.uuid room) rfl (by decide) fun _ => rfl
  | roomNotReady room => exact .single (.uuid room) rfl (by decide) fun _ => rfl
  | roomAccessDenied room => exact .single (.uuid room) rfl (by decide) fun _ => rfl
  | playerNotInRoom player => exact .single (.uuid player) rfl (by decide) fun _ => rfl
  | playerAlreadyDone player => exact .single (.uuid player) rfl (by decide) fun _ => rfl
  | invalidGuessLength expected actual => exact .invalidGuessLength h.1 h.2
  | invalidGuessChars guess => exact .single (.text guess) rfl (by decide) fun _ => rfl
  | invalidLanguage => exact ⟨.string _, rfl⟩
  | wordNotAllowed word => exact .single (.text word) rfl (by decide) fun _ => rfl
  | noAttemptsLeft maxAttempts => exact .single (.nat h) rfl (by decide) fun _ => rfl
  | dictionaryEmpty language => exact .single (.language language) rfl (by decide) fun _ => rfl

end Codec

/-! ### The wire -/

/-- The values of a type that satisfy a condition read back from their JSON text, and different
ones have different texts. -/
structure RoundTrips [Codec α] (fits : α → Prop) : Prop where
  decoded : ∀ a, fits a → decodeText? (encodeText a) = some a
  injective : ∀ a b, fits a → fits b → encodeText a = encodeText b → a = b

theorem RoundTrips.of_readsBack [Codec α] {fits : α → Prop}
    (h : ∀ a, fits a → Codec.ReadsBack a) : RoundTrips fits where
  decoded a ha := Codec.decodeText?_encodeText (h a ha)
  injective a b ha hb heq := by
    have ha' := Codec.decodeText?_encodeText (h a ha)
    have hb' := Codec.decodeText?_encodeText (h b hb)
    rw [heq, hb'] at ha'
    exact (Option.some.inj ha').symm

/-- Everything that is sent, whatever its texts are, reads back from its JSON text if its numbers
fit into 32 bits, and so do the letters of a stored guess. -/
theorem wire_roundTrips :
    RoundTrips RoomView.Fits ∧ RoundTrips RoundView.Fits ∧ RoundTrips GuessView.Fits ∧
      RoundTrips (fun _ : List MarkedLetter => True) ∧ RoundTrips Score.Fits ∧
      RoundTrips Progress.Fits ∧ RoundTrips Event.Fits ∧ RoundTrips Envelope.Fits ∧
      RoundTrips Refusal.Fits ∧ RoundTrips (fun _ : Language => True) ∧
      RoundTrips (fun _ : RoomStatus => True) ∧ RoundTrips (fun _ : RoundStatus => True) ∧
      RoundTrips (fun _ : Standing => True) ∧ RoundTrips (fun _ : Mark => True) ∧
      ∀ (room : RoomId) (number sequence : Nat) (guess : Guess),
        decodeText? (GuessRecord.ofGuess room number sequence guess).letters =
          some guess.letters := by
  refine ⟨.of_readsBack fun _ => .room, .of_readsBack fun _ => .round,
    .of_readsBack fun _ => .guess, .of_readsBack fun _ _ => .list fun l _ => .letter l,
    .of_readsBack fun _ => .score, .of_readsBack fun _ => .progress,
    .of_readsBack fun _ => .event, .of_readsBack fun _ => .envelope,
    .of_readsBack fun _ => .refusal, .of_readsBack fun l _ => .language l,
    .of_readsBack fun s _ => .roomStatus s, .of_readsBack fun s _ => .roundStatus s,
    .of_readsBack fun s _ => .standing s, .of_readsBack fun m _ => .mark m,
    fun _ _ _ guess => decodeText?_encodeText_letters guess.letters⟩

end WordDuel
