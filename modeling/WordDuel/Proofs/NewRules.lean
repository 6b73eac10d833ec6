import WordDuel.Proofs.Points
import WordDuel.Proofs.Winning
/-!
# WordDuel.Proofs.NewRules

**Whether play goes on under other rules.** A round keeps its target and its limit of
attempts, but the length of a guess is asked for anew by the rules that are in force, and the
target has to be as long. So where a round is being played whose target is of another length,
every guess is refused, and there is no next round before this one ends. In all other duels in
progress somebody has a guess that is accepted (`accepted_iff`).
-/

namespace WordDuel

/-- Rules that ask for a letter and allow a guess at least. -/
structure Rules.Accepted (rules : Rules) : Prop where
  wordLength : 1 ≤ rules.wordLength
  maxAttempts : 1 ≤ rules.maxAttempts

/-- A referee whose words are those of a lexicon, under any rules that can be accepted. -/
structure Referee.Consults (referee : Referee) (lexicon : Lexicon) : Prop where
  dictionary : referee.dictionary = lexicon.toDictionary
  rules : referee.rules.Accepted

namespace Duel

/-- A guess of a player is accepted. -/
def Accepts (referee : Referee) (duel : Duel) (player : PlayerId) (raw : String) : Prop :=
  ∃ verdict, (referee.submitGuess player raw).commit? duel = .ok verdict

variable {lexicon : Lexicon} {duel : Duel} {referee : Referee} {player : PlayerId}

/-! ### The length of a guess -/

/-- A guess that is accepted is as long as the rules ask for, and as long as the target. -/
theorem length_of_accepts {round : Round} {raw : String}
    (hcurrent : duel.currentRound? = some round) (hplaying : round.isFinished = false)
    (h : Accepts referee duel player raw) :
    round.target.length = referee.rules.wordLength := by
  obtain ⟨verdict, hverdict⟩ := h
  rw [Referee.commit?_submitGuess] at hverdict
  split at hverdict
  · cases hverdict
  · rw [active?_of_playing hcurrent hplaying] at hverdict
    dsimp only at hverdict
    cases hjudge : referee.judge duel.room round player raw with
    | error failure =>
        rw [hjudge] at hverdict
        cases hverdict
    | ok judged =>
        obtain ⟨-, hcheck, -, -⟩ := referee.judge_eq_ok_iff.1 hjudge
        obtain ⟨hrules, htarget, -⟩ := GuessRules.check_eq_ok_iff.1 hcheck
        rw [← htarget, hrules]

/-! ### A guess that is accepted -/

theorem ArisesBy.arises {kind : Referee → Prop} (h : duel.ArisesBy kind) : duel.Arises := by
  obtain ⟨referee, id, language, creator, plies, -, -, hcourse⟩ := h
  exact ⟨referee, id, language, creator, plies, hcourse⟩

/-- What is drawn is an answer of the length that the rules ask for. -/
theorem answer_of_pickTarget (hdictionary : referee.dictionary = lexicon.toDictionary)
    {language : Language} {target : String} (hpick : referee.pickTarget language = .ok target) :
    (lexicon.answers language).has target ∧ target.length = referee.rules.wordLength := by
  obtain ⟨hlength, words, hwords, hhas⟩ := drawable_of_pickTarget ⟨hdictionary, rfl⟩ hpick
  obtain rfl := Except.ok.inj hwords
  exact ⟨hhas, hlength⟩

/-- A target is drawn if there is an answer of the length that the rules ask for. -/
theorem exists_pickTarget (hdictionary : referee.dictionary = lexicon.toDictionary)
    {language : Language} {word : String} (hword : (lexicon.answers language).has word)
    (hlength : word.length = referee.rules.wordLength) :
    ∃ target, referee.pickTarget language = .ok target := by
  have hmem : word ∈ referee.eligible (lexicon.answers language) :=
    List.mem_filter.2 ⟨WordSet.has_iff.1 hword, by simpa using hlength⟩
  have hbound := Nat.mod_lt referee.draw (List.length_pos_of_mem hmem)
  rw [Referee.pickTarget, hdictionary]
  simp only [Lexicon.toDictionary, List.getElem?_eq_getElem hbound]
  exact ⟨_, rfl⟩

/-- A guess at the target of the round that it goes to is accepted, if the target is an answer
of the length that the rules ask for. -/
theorem accepts_target {active : Referee.Active} (hconsults : referee.Consults lexicon)
    (hcomplete : lexicon.Complete) (hplayable : Referee.unplayable? duel player = none)
    (hactive : referee.active? duel = .ok active)
    (hbarred : Referee.barred? active.round player = none)
    (hhas : (lexicon.answers duel.room.language).has active.round.target)
    (hlength : active.round.target.length = referee.rules.wordLength)
    (hplain : Text.IsPlain active.round.target) :
    Accepts referee duel player active.round.target := by
  have hcheck := check_target hcomplete hconsults.rules.wordLength ⟨hlength, _, rfl, hhas⟩ hplain
  rw [← hconsults.dictionary, ← referee.language_active? hactive] at hcheck
  obtain ⟨round, outcome, hjudge, -⟩ := judge_target hbarred hcheck hplain.normalize
  rw [Accepts, Referee.commit?_submitGuess, hplayable, hactive]
  dsimp only
  rw [hjudge]
  exact ⟨_, rfl⟩

/-- While a round is being played somebody can guess in it. -/
theorem exists_playing (hwf : duel.WellFormed) (haccounted : duel.Accounted) {round : Round}
    (hround : round ∈ duel.rounds) (hplaying : round.isFinished = false) :
    ∃ player ∈ duel.room.players, round.standingOf? player = some .playing := by
  have hnotEnded : round.status ≠ .ended := by simpa [Round.isFinished] using hplaying
  rw [ne_eq, (haccounted.rounds round hround).ended] at hnotEnded
  obtain ⟨player, hnotDone⟩ := Classical.not_forall.1 hnotEnded
  obtain ⟨hplayer, hdone⟩ := Classical.not_imp.1 hnotDone
  obtain ⟨standing, hstanding⟩ :=
    Option.isSome_iff_exists.1 (((hwf.standings round hround).2 player).2 hplayer)
  refine ⟨player, hplayer, ?_⟩
  cases standing with
  | playing => exact hstanding
  | won => exact (hdone (by rw [Round.isDone, hstanding]; rfl)).elim
  | lost => exact (hdone (by rw [Round.isDone, hstanding]; rfl)).elim

/-- Somebody can guess in a round that has just been opened. -/
theorem exists_unbarred_of_opening? (hguesses : 1 ≤ referee.rules.maxAttempts) {round : Round}
    (hopen : referee.opening? duel = .ok round) :
    ∃ player ∈ duel.room.players, Referee.barred? round player = none := by
  obtain ⟨hplayers, target, -, rfl⟩ := referee.opening?_eq_ok_iff.1 hopen
  have hnonempty : duel.room.players ≠ [] := fun hnil => by
    rw [hnil] at hplayers
    cases hplayers
  obtain ⟨player, hplayer⟩ := List.exists_mem_of_ne_nil _ hnonempty
  refine ⟨player, hplayer, Referee.barred?_eq_none_iff.2 ⟨?_, hguesses⟩⟩
  rw [standingOf?_newRound, if_pos hplayer]

/-! ### Exactly when somebody's guess is accepted -/

/-- Under words that come from lists, whose answers in the language of a room are words of the
letters A to Z, let rules be in force of whose length there is an answer, whatever rules that
can be accepted were in force before. While the room is in progress, some player has a guess
that is accepted exactly if no round is being played whose target is of another length. -/
theorem accepted_iff {lists : List (Language × String × String)}
    (h : duel.ArisesBy fun earlier => earlier.Consults (Lexicon.ofLists lists))
    (hconsults : referee.Consults (Lexicon.ofLists lists))
    (hplain : ∀ word, ((Lexicon.ofLists lists).answers duel.room.language).has word →
      Text.IsPlain word)
    (hstocked : ∃ word, ((Lexicon.ofLists lists).answers duel.room.language).has word ∧
      word.length = referee.rules.wordLength)
    (hstatus : duel.room.status = .inProgress) :
    (∃ player ∈ duel.room.players, ∃ raw, Accepts referee duel player raw) ↔
      ∀ round, duel.currentRound? = some round → round.isFinished = false →
        round.target.length = referee.rules.wordLength := by
  constructor
  · rintro ⟨player, -, raw, haccepts⟩ round hcurrent hplaying
    exact length_of_accepts hcurrent hplaying haccepts
  · intro hlength
    have hreachable := h.reachable fun _ hearlier => hearlier.rules.maxAttempts
    have hwf := hreachable.wellFormed
    -- Some round is being played, or one can be opened.
    obtain ⟨active, hactive⟩ : ∃ active, referee.active? duel = .ok active := by
      cases hactive : referee.active? duel with
      | ok active => exact ⟨active, rfl⟩
      | error failure =>
          obtain ⟨word, hword, hwordLength⟩ := hstocked
          obtain ⟨target, hpick⟩ := exists_pickTarget hconsults.dictionary hword hwordLength
          have hopen := referee.opening?_eq_ok_iff.2
            ⟨(hwf.inProgress hstatus).players, target, hpick, rfl⟩
          cases hopen.symm.trans (referee.opening?_of_active? hactive)
    obtain ⟨hhas, htarget, player, hplayer, hbarred⟩ :
        ((Lexicon.ofLists lists).answers duel.room.language).has active.round.target ∧
          active.round.target.length = referee.rules.wordLength ∧
          ∃ player ∈ duel.room.players, Referee.barred? active.round player = none := by
      rcases referee.active?_cases hactive with ⟨hcurrent, hplaying, -⟩ | ⟨-, hopen, -⟩
      · have hround := hwf.mem_rounds hcurrent
        obtain ⟨player, hplayer, hstanding⟩ :=
          exists_playing hwf h.arises.accounted hround hplaying
        refine ⟨?_, hlength _ hcurrent hplaying, player, hplayer,
          barred?_of_playing (hreachable.ledger _ hround) hstanding⟩
        -- Whatever the rules were when it was drawn, the target is an answer.
        exact h.forall_target
          (P := fun language target => ((Lexicon.ofLists lists).answers language).has target)
          (fun _ _ _ hearlier hpick => (answer_of_pickTarget hearlier.dictionary hpick).1) _ hround
      · obtain ⟨-, target, hpick, hround⟩ := referee.opening?_eq_ok_iff.1 hopen
        obtain ⟨hhas, htarget⟩ := answer_of_pickTarget hconsults.dictionary hpick
        rw [hround]
        exact ⟨hhas, htarget, hround ▸
          exists_unbarred_of_opening? hconsults.rules.maxAttempts hopen⟩
    exact ⟨player, hplayer, _, accepts_target hconsults (Lexicon.complete_ofLists lists)
      (playable_iff.2 ⟨hplayer, hstatus⟩) hactive hbarred hhas htarget (hplain _ hhas)⟩

end Duel

/-! ### Rules that change -/

namespace Sample

/-- A referee whose words come from a text, and who asks for words of some length. -/
def refereeAsking (wordLength : Nat) (text : String) : Referee :=
  { refereeOf text with rules := { wordLength } }

theorem consults_refereeAsking {wordLength : Nat} (hlength : 1 ≤ wordLength) (text : String) :
    (refereeAsking wordLength text).Consults (Lexicon.ofLists (answersOf text)) :=
  ⟨rfl, hlength, Nat.le_add_left 1 5⟩

theorem arisesBy_afterUnder (text : String) (changes : List Change) :
    (afterUnder text changes).ArisesBy
      fun earlier => earlier.Consults (Lexicon.ofLists (answersOf text)) := by
  have hconsults : (refereeOf text).Consults (Lexicon.ofLists (answersOf text)) :=
    ⟨rfl, Nat.le_add_left 1 4, Nat.le_add_left 1 5⟩
  refine ⟨refereeOf text, ⟨7⟩, .english, alice, changes.map (Ply.mk (refereeOf text)),
    hconsults, fun ply hply => ?_, rfl⟩
  obtain ⟨change, -, rfl⟩ := List.mem_map.1 hply
  exact hconsults

/-- Words of five letters and of six. -/
def mixedWords : String := "crane\nplanet"

/-- Both players have found the word of the first round. -/
def bothFound : List Change := [.join bob, .guess alice "crane", .guess bob "crane"]

theorem answers_mixedWords :
    ((Lexicon.ofLists (answersOf mixedWords)).answers .english).words = ["CRANE", "PLANET"] := by
  decide +kernel

theorem plain_mixedWords (word : String)
    (h : ((Lexicon.ofLists (answersOf mixedWords)).answers .english).has word) :
    Text.IsPlain word := by
  have hplain : ∀ w ∈ ["CRANE", "PLANET"], Text.IsPlain w := by decide
  rw [WordSet.has_iff, answers_mixedWords] at h
  exact hplain word h

end Sample

namespace Duel

/-- When both players have found the word of a round, words of another length may be asked
for: somebody has a guess that is accepted. -/
theorem accepted_between_rounds :
    (Sample.afterUnder Sample.mixedWords Sample.bothFound).room.status = .inProgress ∧
      ∃ player ∈ (Sample.afterUnder Sample.mixedWords Sample.bothFound).room.players, ∃ raw,
        Accepts (Sample.refereeAsking 6 Sample.mixedWords)
          (Sample.afterUnder Sample.mixedWords Sample.bothFound) player raw := by
  have hstatus :
      (Sample.afterUnder Sample.mixedWords Sample.bothFound).room.status = .inProgress := by
    decide +kernel
  have hended : (Sample.afterUnder Sample.mixedWords Sample.bothFound).currentRound?.all
      Round.isFinished := by
    decide +kernel
  refine ⟨hstatus, (accepted_iff (Sample.arisesBy_afterUnder _ _)
    (Sample.consults_refereeAsking (by decide) _) Sample.plain_mixedWords
    ⟨"PLANET", by decide +kernel, by decide⟩ hstatus).2 fun round hcurrent hplaying => ?_⟩
  rw [hcurrent] at hended
  cases hended.symm.trans hplaying

/-- When words of six letters are asked for while a word of five is to be found, every guess
is refused, though there are answers of both lengths. -/
theorem stuck_of_longer_words :
    (Sample.afterUnder Sample.mixedWords [.join Sample.bob]).ArisesBy
        (fun earlier => earlier.Consults (Lexicon.ofLists (Sample.answersOf Sample.mixedWords))) ∧
      (Sample.refereeAsking 6 Sample.mixedWords).Consults
        (Lexicon.ofLists (Sample.answersOf Sample.mixedWords)) ∧
      ((Lexicon.ofLists (Sample.answersOf Sample.mixedWords)).answers .english).words =
        ["CRANE", "PLANET"] ∧
      (Sample.afterUnder Sample.mixedWords [.join Sample.bob]).room.status = .inProgress ∧
      ¬∃ player raw, Accepts (Sample.refereeAsking 6 Sample.mixedWords)
        (Sample.afterUnder Sample.mixedWords [.join Sample.bob]) player raw := by
  have hcurrent : (Sample.afterUnder Sample.mixedWords [.join Sample.bob]).currentRound? =
      some (Sample.roundUnder Sample.mixedWords [.join Sample.bob]) := by
    decide +kernel
  refine ⟨Sample.arisesBy_afterUnder _ _, Sample.consults_refereeAsking (by decide) _,
    Sample.answers_mixedWords, by decide +kernel, ?_⟩
  rintro ⟨player, raw, haccepts⟩
  have hlength := length_of_accepts hcurrent (by decide +kernel) haccepts
  have htarget : (Sample.roundUnder Sample.mixedWords [.join Sample.bob]).target.length = 5 := by
    decide +kernel
  cases htarget.symm.trans hlength

end Duel

end WordDuel
