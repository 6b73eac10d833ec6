import WordDuel.Proofs.History
/-!
# WordDuel.Proofs.Winning

**Whether a round can be won.** A referee whose words come from lists draws its targets
from the answers, every answer may be guessed, and a word of the letters A to Z is its own
normal form. So a guess at such a target wins the round, unless the room has been closed
meanwhile.
-/

namespace WordDuel

namespace Text

/-! ### Words of the letters A to Z -/

/-- A text of the letters A to Z. -/
def IsPlain (s : String) : Prop := ∀ c ∈ s.toList, 'A' ≤ c ∧ c ≤ 'Z'

instance (s : String) : Decidable (IsPlain s) := List.decidableBAll _ _

/-- A letter that putting in upper case and trimming leave as it is. -/
structure Capital (c : Char) : Prop where
  upperChar : upperChar c = [c]
  toUpper : c.toUpper = c
  isBlank : isBlank c = false
  isAsciiLetter : isAsciiLetter c

instance (c : Char) : Decidable (Capital c) :=
  decidable_of_iff (Text.upperChar c = [c] ∧ c.toUpper = c ∧ Text.isBlank c = false ∧
      Text.isAsciiLetter c)
    ⟨fun ⟨hupper, hascii, hblank, hletter⟩ => ⟨hupper, hascii, hblank, hletter⟩,
      fun ⟨hupper, hascii, hblank, hletter⟩ => ⟨hupper, hascii, hblank, hletter⟩⟩

theorem capital_of_letter {c : Char} (h : 'A' ≤ c ∧ c ≤ 'Z') : Capital c := by
  have hall : ∀ n < 91, 65 ≤ n → Capital (Char.ofNat n) := by decide
  have hlow : 65 ≤ c.toNat := UInt32.le_iff_toNat_le.1 h.1
  have hhigh : c.toNat ≤ 90 := UInt32.le_iff_toNat_le.1 h.2
  have hc := hall c.toNat (by omega) hlow
  rwa [Char.ofNat_toNat] at hc

variable {s : String}

theorem IsPlain.upper (h : IsPlain s) : upper s = s := by
  have hflat : ∀ cs : List Char, (∀ c ∈ cs, 'A' ≤ c ∧ c ≤ 'Z') → cs.flatMap upperChar = cs := by
    intro cs hcs
    induction cs with
    | nil => rfl
    | cons c cs ih =>
        rw [List.flatMap_cons, (capital_of_letter (hcs c (by simp))).upperChar,
          ih fun c hc => hcs c (by simp [hc]), List.singleton_append]
  rw [Text.upper, hflat _ h, String.ofList_toList]

theorem IsPlain.upperAscii (h : IsPlain s) : upperAscii s = s := by
  have hmap : s.toList.map Char.toUpper = s.toList := by
    rw [List.map_congr_left fun c hc => (capital_of_letter (h c hc)).toUpper, List.map_id']
  rw [Text.upperAscii, hmap, String.ofList_toList]

theorem IsPlain.trim (h : IsPlain s) : trim s = s := by
  have hdrop : ∀ cs : List Char, (∀ c ∈ cs, isBlank c = false) → cs.dropWhile isBlank = cs := by
    intro cs hcs
    cases cs with
    | nil => rfl
    | cons c cs => rw [List.dropWhile_cons, hcs c (by simp), if_neg (by simp)]
  have hblank c (hc : c ∈ s.toList) := (capital_of_letter (h c hc)).isBlank
  rw [Text.trim, trimChars, hdrop _ hblank, hdrop _ fun c hc => hblank c (List.mem_reverse.1 hc),
    List.reverse_reverse, String.ofList_toList]

theorem IsPlain.normalize (h : IsPlain s) : GuessRules.normalize s = s := by
  rw [GuessRules.normalize, h.trim, h.upper]

theorem IsPlain.isAlphabetic (h : IsPlain s) (hsome : 1 ≤ s.length) :
    GuessRules.isAlphabetic s := by
  have hletters : s.toList.all isAsciiLetter :=
    List.all_eq_true.2 fun c hc => (capital_of_letter (h c hc)).isAsciiLetter
  have hnonempty : s.toList ≠ [] := by
    rw [← List.length_pos_iff, String.length_toList]
    exact hsome
  simp [GuessRules.isAlphabetic, hletters, hnonempty]

end Text

/-! ### Every answer may be guessed -/

theorem WordSet.has_iff {s : WordSet} {word : String} : s.has word ↔ word ∈ s.words := by
  rw [has, SortedMap.contains, Option.isSome_iff_exists, words, SortedMap.keys, List.mem_map]
  constructor
  · rintro ⟨value, hvalue⟩
    exact ⟨_, s.get?_eq_some_iff.1 hvalue, rfl⟩
  · rintro ⟨entry, hentry, rfl⟩
    exact ⟨_, s.get?_eq_some_iff.2 hentry⟩

theorem SortedMap.contains_union [Ord κ] [Std.TransOrd κ] [Std.LawfulEqOrd κ]
    (a b : SortedMap κ β) {k : κ} (h : b.contains k) : (a.union b).contains k :=
  (contains_union_iff a b k).2 (.inr h)

namespace Lexicon

/-- The lexicon that some texts make, each pair of texts being set for a language: the words
that may be guessed and those that may be the target. -/
def ofLists (lists : List (Language × String × String)) : Lexicon :=
  lists.foldl (fun lexicon list => lexicon.withLanguage list.1 list.2.1 list.2.2) .empty

/-- What may be the target may be guessed. -/
def Complete (lexicon : Lexicon) : Prop :=
  ∀ (l : Language) (word : String), (lexicon.answers l).has word → (lexicon.allowed l).has word

theorem complete_empty : empty.Complete := fun _ _ h => h

theorem Complete.withLanguage {lexicon : Lexicon} (h : lexicon.Complete) (l : Language)
    (allowed answers : String) : (lexicon.withLanguage l allowed answers).Complete := by
  intro m word hword
  rw [Lexicon.withLanguage] at hword ⊢
  dsimp only at hword ⊢
  by_cases hm : m = l
  · rw [if_pos hm] at hword ⊢
    exact SortedMap.contains_union _ _ hword
  · rw [if_neg hm] at hword ⊢
    exact h m word hword

theorem complete_ofLists (lists : List (Language × String × String)) :
    (ofLists lists).Complete := by
  suffices hfold : ∀ lexicon : Lexicon, lexicon.Complete →
      (lists.foldl (fun lexicon list => lexicon.withLanguage list.1 list.2.1 list.2.2)
        lexicon).Complete from hfold _ complete_empty
  induction lists with
  | nil => exact fun _ h => h
  | cons list lists ih => exact fun lexicon h => ih _ (h.withLanguage list.1 list.2.1 list.2.2)

end Lexicon

/-! ### A room under one set of rules -/

/-- Whether a referee has given words and rules. The clock and the draw are free. -/
structure Referee.Enforces (referee : Referee) (dictionary : Dictionary) (rules : Rules) :
    Prop where
  dictionary : referee.dictionary = dictionary
  rules : referee.rules = rules

namespace Duel

/-- A duel to which some course of attempts leads from a new room, all under the same words
and rules. -/
def ArisesUnder (dictionary : Dictionary) (rules : Rules) (duel : Duel) : Prop :=
  ∃ (referee : Referee) (id : RoomId) (language : Language) (creator : PlayerId)
    (plies : List Ply), referee.Enforces dictionary rules ∧
      (∀ ply ∈ plies, ply.referee.Enforces dictionary rules) ∧
      (referee.createRoom id language creator).1.course plies = duel

/-- A duel to which some course of attempts leads from a new room, each under a referee of
some kind. -/
def ArisesBy (kind : Referee → Prop) (duel : Duel) : Prop :=
  ∃ (referee : Referee) (id : RoomId) (language : Language) (creator : PlayerId)
    (plies : List Ply), kind referee ∧ (∀ ply ∈ plies, kind ply.referee) ∧
      (referee.createRoom id language creator).1.course plies = duel

variable {dictionary : Dictionary} {rules : Rules} {duel : Duel} {referee : Referee}

theorem ArisesBy.induction {kind : Referee → Prop} {P : Duel → Prop}
    (created : ∀ (referee : Referee) (id : RoomId) (language : Language) (creator : PlayerId),
      P (referee.createRoom id language creator).1)
    (after : ∀ (duel : Duel) (ply : Ply), kind ply.referee → P duel → P (ply.after duel))
    (h : duel.ArisesBy kind) : P duel := by
  obtain ⟨referee, id, language, creator, plies, -, hkind, rfl⟩ := h
  suffices hcourse : ∀ duel, P duel → P (duel.course plies) from hcourse _ (created _ _ _ _)
  induction plies with
  | nil => exact fun _ hduel => hduel
  | cons ply plies ih =>
      exact fun duel hduel => ih (fun p hp => hkind p (by simp [hp])) _
        (after duel ply (hkind ply (by simp)) hduel)

theorem ArisesBy.reachable {kind : Referee → Prop} (h : duel.ArisesBy kind)
    (hguesses : ∀ referee, kind referee → 1 ≤ referee.rules.maxAttempts) : duel.Reachable :=
  h.induction Reachable.created fun _ ply hkind hduel => hduel.played ply (hguesses _ hkind)

theorem ArisesUnder.arisesBy (h : duel.ArisesUnder dictionary rules) :
    duel.ArisesBy fun referee => referee.Enforces dictionary rules := h

theorem ArisesUnder.reachable (h : duel.ArisesUnder dictionary rules)
    (hguesses : 1 ≤ rules.maxAttempts) : duel.Reachable :=
  h.arisesBy.reachable fun _ henforces => by rw [henforces.rules]; exact hguesses

/-! ### Where the targets come from -/

/-- A word that can be drawn as a target in a language. -/
def Drawable (dictionary : Dictionary) (rules : Rules) (language : Language) (word : String) :
    Prop :=
  word.length = rules.wordLength ∧
    ∃ words, dictionary.answers language = .ok words ∧ words.has word

/-- The targets of all rounds can be drawn in the language of the room. -/
def Drawn (dictionary : Dictionary) (rules : Rules) (duel : Duel) : Prop :=
  ∀ round ∈ duel.rounds, Drawable dictionary rules duel.room.language round.target

theorem drawable_of_pickTarget (h : referee.Enforces dictionary rules) {language : Language}
    {target : String} (hpick : referee.pickTarget language = .ok target) :
    Drawable dictionary rules language target := by
  rw [Referee.pickTarget, h.dictionary] at hpick
  split at hpick
  · cases hpick
  · next words hwords =>
    split at hpick
    · next word hword =>
      obtain rfl := Except.ok.inj hpick
      obtain ⟨hmem, hlength⟩ := List.mem_filter.1 (List.mem_of_getElem? hword)
      exact ⟨by simpa [h.rules] using hlength, words, hwords, WordSet.has_iff.2 hmem⟩
    · cases hpick

/-- A word is the target of a round of a duel, or the one that a referee draws for it. -/
def TargetFrom (referee : Referee) (duel : Duel) (target : String) : Prop :=
  (∃ round ∈ duel.rounds, round.target = target) ∨
    referee.pickTarget duel.room.language = .ok target

theorem targetFrom_opened {opened : Round} (hopen : referee.opening? duel = .ok opened) :
    ∀ round ∈ (duel.opened opened).rounds, TargetFrom referee duel round.target := by
  obtain ⟨-, target, hpick, rfl⟩ := referee.opening?_eq_ok_iff.1 hopen
  intro round hround
  rcases List.mem_append.1 hround with hround | hround
  · exact .inl ⟨round, hround, rfl⟩
  · rw [List.mem_singleton.1 hround]
    exact .inr hpick

theorem targetFrom_active? {active : Referee.Active} (hactive : referee.active? duel = .ok active) :
    ∀ round ∈ active.duel.rounds, TargetFrom referee duel round.target := by
  rcases referee.active?_cases hactive with ⟨-, -, hsame⟩ | ⟨-, hopen, hopened⟩
  · rw [hsame]
    exact fun round hround => .inl ⟨round, hround, rfl⟩
  · rw [hopened]
    exact targetFrom_opened hopen

theorem WellFormed.target_settled (hwf : duel.WellFormed) {last round : Round} {player : PlayerId}
    {raw : String} {outcome : Outcome} (hcurrent : duel.currentRound? = some last)
    (hjudge : referee.judge duel.room last player raw = .ok (round, outcome)) :
    ∀ r ∈ (referee.settled duel round).rounds, ∃ r' ∈ duel.rounds, r'.target = r.target := by
  have htarget : (referee.concluded duel.room round).target = last.target := by
    obtain ⟨-, -, -, rfl⟩ := referee.judge_eq_ok_iff.1 hjudge
    rw [concluded_eq]
    rfl
  rw [hwf.settled_eq referee hcurrent (Referee.number_of_judge hjudge)]
  intro r hr
  rcases List.mem_append.1 hr with hr | hr
  · exact ⟨r, List.dropLast_subset _ hr, rfl⟩
  · rw [List.mem_singleton.1 hr, htarget]
    exact ⟨last, hwf.mem_rounds hcurrent, rfl⟩

/-- In one attempt no target changes, and the target of a round that is opened is drawn in
the language of the room. -/
theorem WellFormed.targetFrom_effect (hwf : duel.WellFormed) {duel' : Duel} {change : Change}
    {events : List Event} (heffect : referee.Effect duel change duel' events) :
    ∀ round ∈ duel'.rounds, TargetFrom referee duel round.target := by
  have hsame : ∀ round ∈ duel.rounds, TargetFrom referee duel round.target :=
    fun round hround => .inl ⟨round, hround, rfl⟩
  cases heffect with
  | enter hadmissible hrunning => exact hsame
  | @pair player round hadmissible hfull hfirst hopen =>
      have hlanguage : (Referee.entered duel player).room.language = duel.room.language := by
        rw [Referee.entered, admitted_eq]
        rfl
      intro r hr
      have horigin := targetFrom_opened hopen r hr
      rw [TargetFrom, hlanguage] at horigin
      exact horigin
  | guess hplayable hactive hjudge =>
      intro round hround
      obtain ⟨round', hround', htarget⟩ :=
        (hwf.active? (playable_iff.1 hplayable).2 hactive).target_settled
          (referee.currentRound?_active? hactive) hjudge round hround
      rw [← htarget]
      exact targetFrom_active? hactive round' hround'
  | start hplayable hactive => exact targetFrom_active? hactive
  | close => exact hsame

/-- What every word has that is drawn in the language of the room, all targets have. -/
theorem ArisesBy.forall_target {kind : Referee → Prop} {P : Language → String → Prop}
    (h : duel.ArisesBy kind)
    (hpick : ∀ (referee : Referee) (language : Language) (target : String), kind referee →
      referee.pickTarget language = .ok target → P language target) :
    ∀ round ∈ duel.rounds, P duel.room.language round.target := by
  refine (h.induction (P := fun duel => duel.WellFormed ∧
    ∀ round ∈ duel.rounds, P duel.room.language round.target) ?_ ?_).2
  · intro referee id language creator
    refine ⟨wellFormed_createRoom referee id language creator, fun round hround => ?_⟩
    cases hround
  · rintro duel ply hkind ⟨hwf, htargets⟩
    refine ⟨hwf.after ply, ?_⟩
    rcases ply.after_cases duel with hsame | ⟨events, heffect⟩
    · rw [hsame]
      exact htargets
    · intro round hround
      rw [(hwf.grows_effect heffect).language]
      rcases hwf.targetFrom_effect heffect round hround with ⟨round', hround', htarget⟩ | hdrawn
      · rw [← htarget]
        exact htargets round' hround'
      · exact hpick _ _ _ hkind hdrawn

theorem ArisesUnder.drawn (h : duel.ArisesUnder dictionary rules) :
    duel.Drawn dictionary rules :=
  h.arisesBy.forall_target fun _ _ _ henforces => drawable_of_pickTarget henforces

/-! ### A guess at the target -/

/-- A drawn target of the letters A to Z passes the check that every guess has to pass. -/
theorem check_target {lexicon : Lexicon} (hlexicon : lexicon.Complete)
    (hlength : 1 ≤ rules.wordLength) {language : Language} {target : String}
    (hdrawable : Drawable lexicon.toDictionary rules language target)
    (hplain : Text.IsPlain target) :
    GuessRules.check lexicon.toDictionary rules.wordLength (GuessRules.normalize target) target
      (some language) = .ok () := by
  obtain ⟨htarget, words, hwords, hhas⟩ := hdrawable
  obtain rfl := Except.ok.inj hwords
  rw [hplain.normalize, GuessRules.check_eq_ok_iff]
  refine ⟨htarget, rfl, hplain.isAlphabetic (by omega), lexicon.allowed language, rfl, ?_⟩
  rw [hplain.upperAscii]
  exact hlexicon language target hhas

/-- A player who can still guess is not barred. -/
theorem barred?_of_playing {round : Round} (h : round.Ledger) {player : PlayerId}
    (hstanding : round.standingOf? player = some .playing) :
    Referee.barred? round player = none :=
  Referee.barred?_eq_none_iff.2
    ⟨hstanding, (((h.borne player .playing hstanding).playing_iff h.limit).1 rfl).1⟩

/-- Once there is a round the room is in progress, unless it is closed. -/
theorem WellFormed.inProgress_of_currentRound? (h : duel.WellFormed) {round : Round}
    (hcurrent : duel.currentRound? = some round) (hopen : duel.room.status ≠ .closed) :
    duel.room.status = .inProgress := by
  cases hstatus : duel.room.status with
  | waiting =>
      have hround := h.mem_rounds hcurrent
      rw [(h.waiting hstatus).rounds] at hround
      cases hround
  | inProgress => rfl
  | closed => exact (hopen hstatus).elim

theorem active?_of_playing {round : Round} (hcurrent : duel.currentRound? = some round)
    (hplaying : round.isFinished = false) : referee.active? duel = .ok ⟨duel, round, []⟩ := by
  simp [Referee.active?, hcurrent, Option.filter, hplaying]

theorem currentRound?_settled {last round : Round} (hcurrent : duel.currentRound? = some last)
    (hnumber : round.number = last.number) :
    (referee.settled duel round).currentRound? = some (referee.concluded duel.room round) := by
  rw [Referee.settled, Referee.concluded]
  split
  · have hended : (referee.ended round).number = last.number := hnumber
    exact currentRound?_setRound hcurrent hended
  · exact currentRound?_setRound hcurrent hnumber

/-- A guess that passes the check and is the word wins the round for its player. -/
theorem judge_target {room : Room} {round : Round} {player : PlayerId} {raw : String}
    (hbarred : Referee.barred? round player = none)
    (hcheck : GuessRules.check referee.dictionary referee.rules.wordLength
      (GuessRules.normalize raw) round.target (some room.language) = .ok ())
    (hword : GuessRules.normalize raw = round.target) :
    ∃ round' outcome, referee.judge room round player raw = .ok (round', outcome) ∧
      outcome.standing = .won ∧ round'.standingOf? player = some .won := by
  have hwon : Referee.standingAfter round (GuessRules.normalize raw)
      (round.attemptsUsed player + 1) = .won := by
    rw [Referee.standingAfter, if_pos hword]
  let outcome : Outcome := ⟨round.attemptsUsed player + 1,
    Marking.mark round.target (GuessRules.normalize raw), .won⟩
  have hjudge := referee.judge_eq_ok_iff.2
    ⟨hbarred, hcheck, (by rw [hwon] : outcome = _), rfl⟩
  refine ⟨_, _, hjudge, rfl, ?_⟩
  rw [Referee.standingOf?_record, if_pos ⟨rfl, rfl⟩]

/-- What a guess in the round that is being played gives is what it is judged to be. -/
theorem commit?_submitGuess_of_judge {round round' : Round} {player : PlayerId} {raw : String}
    {outcome : Outcome} (hplayable : Referee.unplayable? duel player = none)
    (hcurrent : duel.currentRound? = some round) (hplaying : round.isFinished = false)
    (hjudge : referee.judge duel.room round player raw = .ok (round', outcome)) :
    (referee.submitGuess player raw).commit? duel =
      .ok ((round.number, outcome), referee.settled duel round',
        Referee.guessEvents duel.room round' outcome) := by
  rw [Referee.commit?_submitGuess, hplayable, active?_of_playing hcurrent hplaying]
  dsimp only
  rw [hjudge, ← Referee.number_of_judge hjudge]
  rfl

/-- Under words that come from lists and rules that ask for a letter and allow a guess at
least, a player who can still guess in the current round wins it with a guess at its target,
if that is a word of the letters A to Z and the room has not been closed. In a closed room
the guess is refused. -/
theorem target_wins {lists : List (Language × String × String)}
    (hlength : 1 ≤ rules.wordLength) (hguesses : 1 ≤ rules.maxAttempts)
    (h : duel.ArisesUnder (Lexicon.ofLists lists).toDictionary rules)
    (henforces : referee.Enforces (Lexicon.ofLists lists).toDictionary rules) {round : Round}
    (hcurrent : duel.currentRound? = some round) (hplaying : round.isFinished = false)
    {player : PlayerId} (hstanding : round.standingOf? player = some .playing) :
    (duel.room.status = .closed → (referee.submitGuess player round.target).commit? duel =
      .error (.refused (.roomClosed duel.id))) ∧
    (duel.room.status ≠ .closed → Text.IsPlain round.target →
      ∃ outcome duel' events, (referee.submitGuess player round.target).commit? duel =
          .ok ((round.number, outcome), duel', events) ∧
        outcome.standing = .won ∧
        ∃ round', duel'.currentRound? = some round' ∧ round'.number = round.number ∧
          round'.standingOf? player = some .won) := by
  have hreachable := h.reachable hguesses
  have hwf := hreachable.wellFormed
  have hmem := hwf.mem_rounds hcurrent
  constructor
  · intro hclosed
    rw [Referee.commit?_submitGuess, Referee.unplayable?, if_pos hclosed]
  · intro hopen hplain
    have hplayer : player ∈ duel.room.players :=
      ((hwf.standings round hmem).2 player).1 (by rw [hstanding]; rfl)
    have hplayable := playable_iff.2 ⟨hplayer, hwf.inProgress_of_currentRound? hcurrent hopen⟩
    have hcheck := check_target (Lexicon.complete_ofLists lists) hlength (h.drawn round hmem) hplain
    rw [← henforces.dictionary, ← henforces.rules] at hcheck
    obtain ⟨round', outcome, hjudge, houtcome, hwon⟩ := judge_target
      (barred?_of_playing (hreachable.ledger round hmem) hstanding) hcheck hplain.normalize
    have hnumber := Referee.number_of_judge hjudge
    refine ⟨outcome, _, _, commit?_submitGuess_of_judge hplayable hcurrent hplaying hjudge,
      houtcome, _, currentRound?_settled hcurrent hnumber, ?_, ?_⟩
    · rw [concluded_eq]
      exact hnumber
    · rw [concluded_eq]
      exact hwon

end Duel

namespace Sample

/-- The words of a text as answers in English. -/
def answersOf (text : String) : List (Language × String × String) := [(.english, "", text)]

/-- A referee whose words come from a text. -/
def refereeOf (text : String) : Referee where
  rules := {}
  dictionary := (Lexicon.ofLists (answersOf text)).toDictionary
  clock := fun _ => ⟨0, 0⟩
  draw := 0

/-- A room in which some changes are attempted under the words of a text. -/
def afterUnder (text : String) (changes : List Change) : Duel :=
  ((refereeOf text).createRoom ⟨7⟩ .english alice).1.course (changes.map (Ply.mk (refereeOf text)))

/-- The round that is played after some changes under the words of a text. -/
def roundUnder (text : String) (changes : List Change) : Round :=
  (afterUnder text changes).currentRound?.getD
    ((refereeOf text).newRound (afterUnder text changes) "")

/-- The second player has come in, and the first one has made a guess. -/
def missed : List Change := [.join bob, .guess alice "moist"]

/-- Whether something fails, and in a given way, can be decided whatever it would give. -/
instance (r : Result α) (failure : Failure) : Decidable (r = .error failure) :=
  match r with
  | .ok _ => .isFalse fun h => by cases h
  | .error failure' => decidable_of_iff (failure' = failure) (by simp)

theorem enforces_refereeOf (text : String) :
    (refereeOf text).Enforces (Lexicon.ofLists (answersOf text)).toDictionary {} := ⟨rfl, rfl⟩

theorem arisesUnder_afterUnder (text : String) (changes : List Change) :
    (afterUnder text changes).ArisesUnder (Lexicon.ofLists (answersOf text)).toDictionary {} := by
  refine ⟨refereeOf text, ⟨7⟩, .english, alice, changes.map (Ply.mk (refereeOf text)),
    enforces_refereeOf text, fun ply hply => ?_, rfl⟩
  obtain ⟨change, -, rfl⟩ := List.mem_map.1 hply
  exact enforces_refereeOf text

end Sample

namespace Duel

/-- Bob finds the word in a round in which Alice has missed it. -/
theorem target_wins_of_miss :
    (Sample.afterUnder "crane\nmoist" Sample.missed).room.status = .inProgress ∧
      ∃ outcome duel' events,
        ((Sample.refereeOf "crane\nmoist").submitGuess Sample.bob "CRANE").commit?
            (Sample.afterUnder "crane\nmoist" Sample.missed) =
          .ok ((1, outcome), duel', events) ∧
        outcome.standing = .won ∧
        ∃ round', duel'.currentRound? = some round' ∧ round'.number = 1 ∧
          round'.standingOf? Sample.bob = some .won := by
  have hcurrent : (Sample.afterUnder "crane\nmoist" Sample.missed).currentRound? =
      some (Sample.roundUnder "crane\nmoist" Sample.missed) := by
    decide +kernel
  have hstatus : (Sample.afterUnder "crane\nmoist" Sample.missed).room.status = .inProgress := by
    decide +kernel
  have htarget : (Sample.roundUnder "crane\nmoist" Sample.missed).target = "CRANE" := by
    decide +kernel
  have hnumber : (Sample.roundUnder "crane\nmoist" Sample.missed).number = 1 := by
    decide +kernel
  have hstanding : (Sample.roundUnder "crane\nmoist" Sample.missed).standingOf? Sample.bob =
      some .playing := by
    decide +kernel
  have hwins := (target_wins (by decide) (by decide) (Sample.arisesUnder_afterUnder _ _)
    (Sample.enforces_refereeOf _) hcurrent (by decide +kernel) hstanding).2
  rw [htarget, hnumber] at hwins
  exact ⟨hstatus, hwins (by rw [hstatus]; decide) (by decide)⟩

/-- A target with an accent is refused for its characters, and any target is once the room
is closed; the round is still being played and Alice can still guess. -/
theorem target_refused :
    ((Sample.afterUnder "école" [.join Sample.bob]).ArisesUnder
        (Lexicon.ofLists (Sample.answersOf "école")).toDictionary {} ∧
      (Sample.afterUnder "école" [.join Sample.bob]).currentRound? =
        some (Sample.roundUnder "école" [.join Sample.bob]) ∧
      (Sample.roundUnder "école" [.join Sample.bob]).isFinished = false ∧
      (Sample.roundUnder "école" [.join Sample.bob]).standingOf? Sample.alice = some .playing ∧
      ((Sample.refereeOf "école").submitGuess Sample.alice
          (Sample.roundUnder "école" [.join Sample.bob]).target).commit?
        (Sample.afterUnder "école" [.join Sample.bob]) =
        .error (.refused (.invalidGuessChars "ÉCOLE"))) ∧
    (Sample.afterUnder "crane" [.join Sample.bob, .close]).ArisesUnder
        (Lexicon.ofLists (Sample.answersOf "crane")).toDictionary {} ∧
      (Sample.afterUnder "crane" [.join Sample.bob, .close]).currentRound? =
        some (Sample.roundUnder "crane" [.join Sample.bob, .close]) ∧
      (Sample.roundUnder "crane" [.join Sample.bob, .close]).isFinished = false ∧
      (Sample.roundUnder "crane" [.join Sample.bob, .close]).standingOf? Sample.alice =
        some .playing ∧
      ((Sample.refereeOf "crane").submitGuess Sample.alice
          (Sample.roundUnder "crane" [.join Sample.bob, .close]).target).commit?
        (Sample.afterUnder "crane" [.join Sample.bob, .close]) =
        .error (.refused (.roomClosed ⟨7⟩)) := by
  refine ⟨⟨Sample.arisesUnder_afterUnder _ _, ?_, ?_, ?_, ?_⟩,
    Sample.arisesUnder_afterUnder _ _, ?_, ?_, ?_, ?_⟩ <;> decide +kernel

end Duel

end WordDuel
