import WordDuel.Proofs.Ledger
/-!
# WordDuel.Proofs.Secrecy

**What a view gives away.** To a player who can still guess two duels should look alike
if they differ only in the target and in the words of the opponent, as long as lengths and
marks are the same: that is, if they are the same once these words are blanked out. They
do not. The marks of the opponent's guesses come with their letters, and the letters spell
the words; so two such duels look alike exactly if the opponent's words are the same.
Nothing else gets through: blank the letters out too, and the views are the same.
-/

namespace WordDuel

/-! ### Blanking out -/

/-- A letter of which only the mark is left. -/
def MarkedLetter.blanked (l : MarkedLetter) : MarkedLetter := ⟨' ', l.mark⟩

/-- A word of which only the length is left. -/
def blankWord (word : String) : String := .ofList (List.replicate word.length ' ')

/-- A guess of which only the marks are left, unless it is the viewer's own. -/
def Guess.blankedFor (guess : Guess) (viewer : PlayerId) : Guess :=
  if guess.player = viewer then guess
  else { guess with word := "", letters := guess.letters.map MarkedLetter.blanked }

/-- A round without what is kept from a viewer who can still guess. -/
def Round.blankedFor (round : Round) (viewer : PlayerId) : Round :=
  { round with
    target := blankWord round.target
    guesses := round.guesses.map fun guess => guess.blankedFor viewer }

/-- A duel in whose current round the target and the opponent's words are blanked out. -/
def Duel.blankedFor (duel : Duel) (viewer : PlayerId) : Duel :=
  duel.currentRound?.elim duel fun round => duel.setRound (round.blankedFor viewer)

/-- A guess as shown without the letters of a word that is not shown. -/
def GuessView.blanked (v : GuessView) : GuessView :=
  if v.word.isSome then v else { v with letters := v.letters.map MarkedLetter.blanked }

/-- A round as shown without the letters of the words that are not shown. -/
def RoundView.blanked (v : RoundView) : RoundView :=
  { v with guesses := v.guesses.map GuessView.blanked }

/-- A room as shown without the letters of the words that are not shown. -/
def RoomView.blanked (v : RoomView) : RoomView :=
  { v with currentRound := v.currentRound.map RoundView.blanked }

/-! ### What is shown once the words are blanked out -/

theorem length_blankWord (word : String) : (blankWord word).length = word.length := by
  simp [blankWord]

@[simp] theorem Guess.player_blankedFor (guess : Guess) (viewer : PlayerId) :
    (guess.blankedFor viewer).player = guess.player := by
  rw [blankedFor]
  split <;> rfl

theorem Guess.view_blankedFor (guess : Guess) (viewer : PlayerId) :
    (guess.blankedFor viewer).view false viewer = (guess.view false viewer).blanked := by
  rw [blankedFor]
  by_cases hown : guess.player = viewer
  · simp [hown, view, GuessView.blanked]
  · simp [hown, view, GuessView.blanked]

namespace Round

theorem attemptsUsed_blankedFor (round : Round) (viewer player : PlayerId) :
    (round.blankedFor viewer).attemptsUsed player = round.attemptsUsed player := by
  rw [attemptsUsed, attemptsUsed, guessesBy, guessesBy, blankedFor]
  induction round.guesses with
  | nil => rfl
  | cons guess guesses ih =>
      by_cases hplayer : guess.player = player <;> simpa [hplayer] using ih

theorem progressOf?_blankedFor (round : Round) (viewer player : PlayerId) :
    (round.blankedFor viewer).progressOf? player = round.progressOf? player := by
  rw [progressOf?, attemptsUsed_blankedFor]
  rfl

/-- What a viewer is shown of a blanked round is what is shown of the round, but for the
letters. -/
theorem view_blankedFor {round : Round} {viewer : PlayerId} (room : Room)
    (hhidden : round.isOpenTo viewer = false) :
    (round.blankedFor viewer).view room viewer = (round.view room viewer).blanked := by
  have hhidden' : (round.blankedFor viewer).isOpenTo viewer = false := hhidden
  have hprogress : (round.blankedFor viewer).progressOf? = round.progressOf? :=
    funext (round.progressOf?_blankedFor viewer)
  rw [view, view, hhidden, hhidden', hprogress, wordLength, wordLength]
  simp [blankedFor, RoundView.blanked, length_blankWord, Guess.view_blankedFor]

end Round

namespace Duel

@[simp] theorem room_blankedFor (duel : Duel) (viewer : PlayerId) :
    (duel.blankedFor viewer).room = duel.room := by
  rw [blankedFor]
  cases duel.currentRound? <;> rfl

theorem currentRound?_blankedFor {duel : Duel} {round : Round} (viewer : PlayerId)
    (h : duel.currentRound? = some round) :
    (duel.blankedFor viewer).currentRound? = some (round.blankedFor viewer) := by
  rw [blankedFor, h]
  exact currentRound?_setRound h rfl

/-- Leaving out the letters is all that it takes to keep the words of the current round
from a viewer who can still guess. -/
theorem blanked_viewFor {duel : Duel} {round : Round} {viewer : PlayerId}
    (hround : duel.currentRound? = some round) (hhidden : round.isOpenTo viewer = false) :
    (duel.viewFor viewer).blanked = (duel.blankedFor viewer).viewFor viewer := by
  rw [viewFor, viewFor, room_blankedFor, currentRound?_blankedFor viewer hround, hround]
  simp [RoomView.blanked, Round.view_blankedFor duel.room hhidden]

end Duel

/-! ### The letters spell the words -/

theorem Guess.Legal.word_eq {guess : Guess} {target : String} (h : guess.Legal target) :
    guess.word = .ofList (guess.letters.map MarkedLetter.letter) := by
  rw [h.marked, Marking.letters_mark, String.ofList_toList]

theorem marks_blanked (ls : List MarkedLetter) :
    (ls.map MarkedLetter.blanked).map MarkedLetter.mark = ls.map MarkedLetter.mark := by
  simp [MarkedLetter.blanked]

theorem words_of_letters {guesses : List Guess} {target : String}
    (h : ∀ guess ∈ guesses, guess.Legal target) :
    guesses.map Guess.word =
      (guesses.map Guess.letters).map fun ls => .ofList (ls.map MarkedLetter.letter) := by
  rw [List.map_map]
  exact List.map_congr_left fun guess hguess => (h guess hguess).word_eq

theorem Round.letters_view (round : Round) (room : Room) (viewer : PlayerId) :
    (round.view room viewer).guesses.map GuessView.letters = round.guesses.map Guess.letters := by
  rw [view, List.map_map]
  rfl

/-- Letters are known by what they spell and how they are marked. -/
theorem eq_of_letters_of_marks {ls ms : List MarkedLetter}
    (hletters : ls.map MarkedLetter.letter = ms.map MarkedLetter.letter)
    (hmarks : ls.map MarkedLetter.mark = ms.map MarkedLetter.mark) : ls = ms := by
  induction ls generalizing ms with
  | nil => simpa using hletters
  | cons l ls ih =>
      cases ms with
      | nil => cases hletters
      | cons m ms =>
          rw [List.map_cons, List.map_cons, List.cons.injEq] at hletters hmarks
          have hhead : l = m := by
            cases l
            cases m
            simp_all
          rw [hhead, ih hletters.2 hmarks.2]

/-- Two legal guesses that differ only in what is blanked out differ in their words. -/
theorem Guess.eq_of_blankedFor {guess guess' : Guess} {target target' : String}
    {viewer : PlayerId} (h : guess.Legal target) (h' : guess'.Legal target')
    (hblanked : guess.blankedFor viewer = guess'.blankedFor viewer)
    (hword : guess.word = guess'.word) : guess = guess' := by
  have hplayer : guess.player = guess'.player := by
    rw [← guess.player_blankedFor viewer, hblanked, player_blankedFor]
  have hletters :
      guess.letters.map MarkedLetter.letter = guess'.letters.map MarkedLetter.letter := by
    rw [h.marked, h'.marked, Marking.letters_mark, Marking.letters_mark, hword]
  by_cases hown : guess'.player = viewer
  · rwa [blankedFor, blankedFor, if_pos (hplayer.trans hown), if_pos hown] at hblanked
  · rw [blankedFor, blankedFor, if_neg fun hown' => hown (hplayer.symm.trans hown'),
      if_neg hown] at hblanked
    have hattempt := congrArg Guess.attempt hblanked
    have hcreatedAt := congrArg Guess.createdAt hblanked
    have hmarks := congrArg (fun guess => guess.letters.map MarkedLetter.mark) hblanked
    simp only [marks_blanked] at hmarks
    have hsame := eq_of_letters_of_marks hletters hmarks
    cases guess
    cases guess'
    simp_all

theorem eq_of_map_blankedFor {guesses guesses' : List Guess} {target target' : String}
    {viewer : PlayerId} (h : ∀ guess ∈ guesses, guess.Legal target)
    (h' : ∀ guess ∈ guesses', guess.Legal target')
    (hblanked : guesses.map (·.blankedFor viewer) = guesses'.map (·.blankedFor viewer))
    (hwords : guesses.map Guess.word = guesses'.map Guess.word) : guesses = guesses' := by
  induction guesses generalizing guesses' with
  | nil => simpa using hwords
  | cons guess guesses ih =>
      cases guesses' with
      | nil => cases hwords
      | cons guess' guesses' =>
          rw [List.map_cons, List.map_cons, List.cons.injEq] at hblanked hwords
          have hguess := Guess.eq_of_blankedFor (h guess (by simp)) (h' guess' (by simp))
            hblanked.1 hwords.1
          have hguesses := ih (fun g hg => h g (by simp [hg])) (fun g hg => h' g (by simp [hg]))
            hblanked.2 hwords.2
          rw [hguess, hguesses]

/-! ### When two duels look alike -/

/-- Two rounds with the same guesses that differ only in the target look alike. -/
theorem Round.view_eq_of_guesses {round round' : Round} {viewer : PlayerId} (room : Room)
    (hblanked : round.blankedFor viewer = round'.blankedFor viewer)
    (hguesses : round.guesses = round'.guesses) (hhidden : round.isOpenTo viewer = false)
    (hhidden' : round'.isOpenTo viewer = false) :
    round.view room viewer = round'.view room viewer := by
  have hlength : round.wordLength = round'.wordLength := by
    have htargets := congrArg (fun r => r.target.length) hblanked
    simpa [blankedFor, length_blankWord, wordLength] using htargets
  have hstandings := congrArg Round.standings hblanked
  have hprogress : round.progressOf? = round'.progressOf? := by
    funext player
    have hstanding : round.standingOf? player = round'.standingOf? player :=
      congrArg (SortedMap.get? · player) hstandings
    rw [progressOf?, progressOf?, hstanding, attemptsUsed, attemptsUsed, guessesBy, guessesBy,
      hguesses]
  have hnumber := congrArg Round.number hblanked
  have hmaxAttempts := congrArg Round.maxAttempts hblanked
  have hstatus := congrArg Round.status hblanked
  have hstartedAt := congrArg Round.startedAt hblanked
  have hfinishedAt := congrArg Round.finishedAt hblanked
  simp only [blankedFor] at hnumber hmaxAttempts hstatus hstartedAt hfinishedAt
  rw [view, view, hhidden, hhidden', hlength, hprogress, hguesses, hnumber, hmaxAttempts, hstatus,
    hstartedAt, hfinishedAt]
  rfl

namespace Duel

/-- A player who can still guess sees nothing of the words of a round that is being
played. -/
theorem isOpenTo_eq_false {round : Round} {viewer : PlayerId} (hplaying : round.isFinished = false)
    (hstanding : round.standingOf? viewer = some .playing) : round.isOpenTo viewer = false := by
  rw [Round.isOpenTo, hplaying, Round.isDone, hstanding]
  rfl

theorem isOpenTo_blankedFor (round : Round) (viewer : PlayerId) :
    (round.blankedFor viewer).isOpenTo viewer = round.isOpenTo viewer := rfl

/-- If two duels that can come about differ only in the target and in the opponent's words
of the current round, which is being played, then a viewer who can still guess is shown the
same of both exactly if the opponent's words are the same, and in any case the same but for
the letters of these words. -/
theorem viewFor_eq_iff {a b : Duel} {round round' : Round} {viewer : PlayerId} (ha : a.Reachable)
    (hb : b.Reachable) (hround : a.currentRound? = some round)
    (hround' : b.currentRound? = some round') (hplaying : round.isFinished = false)
    (hstanding : round.standingOf? viewer = some .playing)
    (hsame : a.blankedFor viewer = b.blankedFor viewer) :
    (a.viewFor viewer = b.viewFor viewer ↔
      round.guesses.map Guess.word = round'.guesses.map Guess.word) ∧
    (a.viewFor viewer).blanked = (b.viewFor viewer).blanked := by
  have hroom : a.room = b.room := by
    rw [← room_blankedFor a viewer, hsame, room_blankedFor]
  have hblanked : round.blankedFor viewer = round'.blankedFor viewer := by
    have hcurrent := currentRound?_blankedFor viewer hround
    rw [hsame, currentRound?_blankedFor viewer hround'] at hcurrent
    exact (Option.some.inj hcurrent).symm
  have hhidden := isOpenTo_eq_false hplaying hstanding
  have hhidden' : round'.isOpenTo viewer = false := by
    rw [← isOpenTo_blankedFor, ← hblanked, isOpenTo_blankedFor, hhidden]
  have hlegal := (ha.ledger round (ha.wellFormed.mem_rounds hround)).legal
  have hlegal' := (hb.ledger round' (hb.wellFormed.mem_rounds hround')).legal
  refine ⟨⟨?_, ?_⟩, ?_⟩
  · intro hview
    have hcurrent := congrArg RoomView.currentRound hview
    rw [viewFor, viewFor, hround, hround'] at hcurrent
    have hletters := congrArg (fun v => v.guesses.map GuessView.letters) (Option.some.inj hcurrent)
    simp only [Round.letters_view] at hletters
    rw [words_of_letters hlegal, words_of_letters hlegal', hletters]
  · intro hwords
    have hguesses := eq_of_map_blankedFor hlegal hlegal' (congrArg Round.guesses hblanked) hwords
    have hview := Round.view_eq_of_guesses b.room hblanked hguesses hhidden hhidden'
    rw [viewFor, viewFor, hround, hround', hroom, Option.map_some, Option.map_some, hview]
  · rw [blanked_viewFor hround hhidden, blanked_viewFor hround' hhidden', hsame]

end Duel

namespace Sample

/-- The second player has made a guess; the first one has not. -/
def guessed (word : String) : Duel := after [.join bob, .guess bob word]

/-- The round that is being played after a guess of the second player. -/
def playedRound (word : String) : Round :=
  (guessed word).currentRound?.getD (referee.newRound (guessed word) "")

end Sample

/-- Two wrong words without a letter in the right place look different. -/
theorem Duel.viewFor_ne_of_other_word :
    (Sample.guessed "moist").viewFor Sample.alice ≠ (Sample.guessed "bumpy").viewFor Sample.alice ∧
      ((Sample.guessed "moist").viewFor Sample.alice).blanked =
        ((Sample.guessed "bumpy").viewFor Sample.alice).blanked := by
  have hround : (Sample.guessed "moist").currentRound? = some (Sample.playedRound "moist") := by
    decide +kernel
  have hround' : (Sample.guessed "bumpy").currentRound? = some (Sample.playedRound "bumpy") := by
    decide +kernel
  have hstanding : (Sample.playedRound "moist").standingOf? Sample.alice = some .playing := by
    decide +kernel
  have hsame : (Sample.guessed "moist").blankedFor Sample.alice =
      (Sample.guessed "bumpy").blankedFor Sample.alice := by
    decide +kernel
  obtain ⟨hwords, hblanked⟩ := viewFor_eq_iff (Sample.reachable_after _)
    (Sample.reachable_after _) hround hround' (by decide +kernel) hstanding hsame
  exact ⟨fun hview => absurd (hwords.1 hview) (by decide +kernel), hblanked⟩

/-- What is blanked out can be told apart from the view. -/
theorem Duel.letters_give_words_away :
    ¬∀ (a b : Duel) (round round' : Round) (viewer : PlayerId), a.Reachable → b.Reachable →
      a.currentRound? = some round → b.currentRound? = some round' →
      round.isFinished = false → round'.isFinished = false →
      round.standingOf? viewer = some .playing → round'.standingOf? viewer = some .playing →
      a.blankedFor viewer = b.blankedFor viewer → a.viewFor viewer = b.viewFor viewer := by
  intro hhidden
  have hview := hhidden (Sample.guessed "moist") (Sample.guessed "bumpy")
    (Sample.playedRound "moist") (Sample.playedRound "bumpy") Sample.alice
    (Sample.reachable_after _) (Sample.reachable_after _) (by decide +kernel) (by decide +kernel)
    (by decide +kernel) (by decide +kernel) (by decide +kernel) (by decide +kernel)
    (by decide +kernel)
  exact absurd hview (by decide +kernel)

end WordDuel
