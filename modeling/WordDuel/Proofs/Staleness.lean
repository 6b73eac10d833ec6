import WordDuel.Proofs.Freshness
import WordDuel.Proofs.Winning
import WordDuel.Words.Shelf
/-!
# WordDuel.Proofs.Staleness

**What a cache gives out of files that are edited.** Whatever is looked up is what the files
gave at some moment, less than the time to live ago and not forgotten since
(`exists_recent`). The answers and the words that may be guessed are remembered apart, so that
the moments need not be the same: a word that was put on the list of answers in between is an
answer that may not be guessed.
-/

namespace WordDuel

namespace WordDirectory

variable {dir : WordDirectory} {l : Language} {words : WordSet}

@[simp] theorem load_answers : dir.load l .answers = dir.readList l .answers := by
  simp [load]

theorem load_allowed_eq_ok_iff :
    dir.load l .allowed = .ok words ↔
      ∃ answers others, dir.readList l .answers = .ok answers ∧
        dir.readList l .allowed = .ok others ∧ words = others.union answers := by
  cases hanswers : dir.readList l .answers with
  | error cause => simp [load, hanswers, bind, Except.bind]
  | ok answers =>
      cases hothers : dir.readList l .allowed with
      | error cause => simp [load, hanswers, hothers, bind, Except.bind]
      | ok others => simp [load, hanswers, hothers, bind, Except.bind, pure, Except.pure, eq_comm]

end WordDirectory

/-- What happens to files happens to the source of words that they are. -/
def DeskEvent.ofShelf (root : String) : ShelfEvent → DeskEvent
  | .edit node? => .change (WordDirectory.load ⟨root, node?⟩)
  | .wait time => .wait time
  | .invalidate => .invalidate
  | .lookup l kind => .lookup l kind

namespace WordShelf

variable {s : WordShelf} {events : List ShelfEvent} {l : Language} {kind : WordKind}

/-! ### Moments of a history -/

/-- The directory and its cache after so many events of a history. -/
def moment (s : WordShelf) (events : List ShelfEvent) (i : Nat) : WordShelf :=
  s.run (events.take i)

theorem moment_length : s.moment events events.length = s.run events := by
  rw [moment, List.take_length]

/-- A moment of a history since which nothing has been forgotten, and which is less than the
time to live ago if it is not the end. -/
structure Recent (s : WordShelf) (events : List ShelfEvent) (i : Nat) : Prop where
  le : i ≤ events.length
  kept : .invalidate ∉ events.drop i
  young : i < events.length → (s.run events).now < (s.moment events i).now + s.cache.ttl

/-! ### Files as a source of words -/

/-- A directory of word lists as any other source of words. -/
def desk (s : WordShelf) : WordDesk := ⟨s.files.load, s.cache, s.now⟩

theorem desk_run (s : WordShelf) (events : List ShelfEvent) :
    (s.run events).desk = s.desk.run (events.map (.ofShelf s.files.root)) := by
  induction events generalizing s with
  | nil => rfl
  | cons event events ih =>
      have hroot : (s.after event).files.root = s.files.root := by cases event <;> rfl
      have hafter : (s.after event).desk = s.desk.after (.ofShelf s.files.root event) := by
        cases event <;> rfl
      have hrest := ih (s.after event)
      rw [hroot, hafter] at hrest
      exact hrest

theorem desk_moment (s : WordShelf) (events : List ShelfEvent) (i : Nat) :
    (s.moment events i).desk = s.desk.moment (events.map (.ofShelf s.files.root)) i := by
  rw [moment, desk_run, List.map_take, WordDesk.moment]

/-- A load that lasts was made at a recent moment. -/
theorem recent_of_lasting {i : Nat} {words : WordSet}
    (h : s.desk.Lasting (events.map (.ofShelf s.files.root)) l kind i words) :
    s.Recent events i ∧ (s.moment events i).files.load l kind = .ok words := by
  obtain ⟨hloads, hkept, hyoung⟩ := h
  have hgiven := hloads.given
  rw [← desk_moment] at hgiven hyoung
  rw [← desk_run] at hyoung
  have hle : i ≤ events.length := by
    rw [← List.length_map (DeskEvent.ofShelf s.files.root)]
    exact Nat.le_of_lt hloads.lt
  rw [← List.map_drop] at hkept
  refine ⟨⟨hle, fun hmem => hkept (List.mem_map_of_mem hmem), fun _ => ?_⟩, hgiven⟩
  have hyoung : (s.run events).now - (s.moment events i).now < s.cache.ttl := hyoung
  omega

/-- What a look-up gives is what the files gave at a moment since which nothing has been
forgotten, and that is less than the time to live ago if it is not now. -/
theorem exists_recent {ttl : Nat} {files : WordDirectory} {words : WordSet}
    (h : ((start ttl files).run events).words l kind = .ok words) :
    ∃ i, (start ttl files).Recent events i ∧
      ((start ttl files).moment events i).files.load l kind = .ok words := by
  have hremembers := WordDesk.remembers_run ttl files.load (events.map (.ofShelf files.root))
  have hrun : ((start ttl files).run events).desk = (WordDesk.start ttl files.load).run _ :=
    desk_run _ _
  have hwords : (((start ttl files).run events).desk.ask l kind).1.words = .ok words := h
  rcases ((start ttl files).run events).desk.ask_cases l kind with
    ⟨e, hfound, hyoung, hask⟩ | ⟨-, given, hgiven, hask⟩ | ⟨-, cause, -, hask⟩
  · rw [hask] at hwords
    obtain rfl := Except.ok.inj hwords
    rw [hrun] at hfound hyoung
    obtain ⟨i, hlasting⟩ := hremembers.lasting hfound hyoung
    exact ⟨i, recent_of_lasting hlasting⟩
  · -- Nothing young enough is remembered, so that the files are read now.
    rw [hask] at hwords
    obtain rfl := Except.ok.inj hwords
    refine ⟨events.length, ⟨Nat.le_refl _, by simp, fun hlt => (Nat.lt_irrefl _ hlt).elim⟩, ?_⟩
    rw [moment_length]
    exact hgiven
  · rw [hask] at hwords
    cases hwords

end WordShelf

/-! ### Words of a list -/

theorem Text.toUpper_of_isLower {c : Char} (h : c.isLower = false) : c.toUpper = c := by
  have hlower : c.isLower = (decide (97 ≤ c.val) && decide (c.val ≤ 122)) := rfl
  rw [hlower, Bool.and_eq_false_iff, decide_eq_false_iff_not, decide_eq_false_iff_not] at h
  exact dif_neg fun hbetween => h.elim (· hbetween.1) (· hbetween.2)

theorem Text.upperAscii_upper (s : String) : Text.upperAscii (Text.upper s) = Text.upper s := by
  have hmap : (Text.upper s).toList.map Char.toUpper = (Text.upper s).toList := by
    rw [List.map_congr_left fun c hc => Text.toUpper_of_isLower (Text.isLower_of_mem_upper hc),
      List.map_id']
  rw [Text.upperAscii, hmap, String.ofList_toList]

theorem WordSet.has_ofWords {words : List String} {word : String} :
    (WordSet.ofWords words).has word ↔ word ∈ words := by
  rw [WordSet.has, WordSet.ofWords, SortedMap.contains, SortedMap.get?_ofList_const]
  split <;> simp [*]

theorem WordList.upperAscii_of_has_parse {text word : String}
    (h : (WordList.parse text).has word) : Text.upperAscii word = word := by
  rw [WordList.parse, WordSet.has_ofWords, List.mem_filterMap] at h
  obtain ⟨line, -, hword⟩ := h
  rw [WordList.wordOnLine?] at hword
  split at hword
  · cases hword
  · split at hword
    · cases hword
    · rw [← Option.some.inj hword, Text.upperAscii_upper]

namespace WordDirectory

/-- A word is on the list of answers of a directory. -/
def ListsAnswer (dir : WordDirectory) (l : Language) (word : String) : Prop :=
  ∃ words, dir.readList l .answers = .ok words ∧ words.has word

variable {dir : WordDirectory} {l : Language} {words : WordSet} {word : String}

theorem upperAscii_of_listsAnswer (h : dir.ListsAnswer l word) : Text.upperAscii word = word := by
  obtain ⟨words, hread, hhas⟩ := h
  rw [readList] at hread
  split at hread
  · obtain rfl := Except.ok.inj hread
    cases hhas
  · cases hread
  · split at hread
    · obtain rfl := Except.ok.inj hread
      exact WordList.upperAscii_of_has_parse hhas
    · cases hread

/-- What is on the list of answers may be guessed. -/
theorem has_of_load_allowed (hload : dir.load l .allowed = .ok words)
    (h : dir.ListsAnswer l word) : words.has word := by
  obtain ⟨listed, others, hlisted, -, rfl⟩ := load_allowed_eq_ok_iff.1 hload
  obtain ⟨answers, hanswers, hhas⟩ := h
  obtain rfl := Except.ok.inj (hlisted.symm.trans hanswers)
  exact SortedMap.contains_union _ _ hhas

end WordDirectory

/-- A guess among the words that may be guessed is never refused for not being one of them. -/
theorem GuessRules.check_ne_wordNotAllowed {dictionary : Dictionary} {l : Language}
    {words : WordSet} {guess : String} (hwords : dictionary.allowed l = .ok words)
    (hhas : words.has (Text.upperAscii guess)) (wordLength : Nat) (target word : String) :
    GuessRules.check dictionary wordLength guess target (some l) ≠
      .error (.refused (.wordNotAllowed word)) := by
  rw [GuessRules.check, hwords]
  dsimp only
  rw [if_pos hhas]
  cases hlength : GuessRules.checkLength wordLength guess target with
  | error refusal =>
      rw [GuessRules.checkLength] at hlength
      grind
  | ok _ => by_cases halpha : GuessRules.isAlphabetic guess <;> simp [halpha]

namespace WordShelf

/-- The words as they are given out now. -/
def dictionary (s : WordShelf) : Dictionary := .ofSource s.words

/-- A word may be guessed now, and no guess at it is refused for not being a word. -/
def Guessable (s : WordShelf) (l : Language) (word : String) : Prop :=
  (∃ words, s.words l .allowed = .ok words ∧ words.has word) ∧
    ∀ wordLength target refused,
      GuessRules.check s.dictionary wordLength word target (some l) ≠
        .error (.refused (.wordNotAllowed refused))

theorem guessable_of_has {s : WordShelf} {l : Language} {words : WordSet} {word : String}
    (hwords : s.words l .allowed = .ok words) (hhas : words.has word)
    (hupper : Text.upperAscii word = word) : s.Guessable l word := by
  have hallowed : s.dictionary.allowed l = .ok words := by
    rw [dictionary, Dictionary.ofSource]
    dsimp only
    rw [hwords]
    rfl
  refine ⟨⟨words, hwords, hhas⟩, GuessRules.check_ne_wordNotAllowed hallowed ?_⟩
  rw [hupper]
  exact hhas

/-- Let a look-up give answers, and a later one the words that may be guessed. The first are
those that the files listed at some moment, the second what they gave at some moment, not
necessarily the same; each of them is less than the time to live ago, and since then nothing
has been forgotten. Every answer that was listed at the second moment too may be guessed. -/
theorem guessable_of_listed {ttl : Nat} {files : WordDirectory} {l : Language}
    {earlier between : List ShelfEvent} {answers allowed : WordSet}
    (hanswers : ((start ttl files).run earlier).words l .answers = .ok answers)
    (hallowed : ((start ttl files).run (earlier ++ .lookup l .answers :: between)).words l
      .allowed = .ok allowed) :
    ∃ i j, (start ttl files).Recent earlier i ∧
      (start ttl files).Recent (earlier ++ .lookup l .answers :: between) j ∧
      (∀ word, answers.has word ↔
        ((start ttl files).moment earlier i).files.ListsAnswer l word) ∧
      ((start ttl files).moment (earlier ++ .lookup l .answers :: between) j).files.load l
        .allowed = .ok allowed ∧
      ∀ word, ((start ttl files).moment (earlier ++ .lookup l .answers :: between) j)
          |>.files.ListsAnswer l word →
        ((start ttl files).run (earlier ++ .lookup l .answers :: between)).Guessable l word := by
  obtain ⟨i, hi, hloadAnswers⟩ := exists_recent hanswers
  obtain ⟨j, hj, hloadAllowed⟩ := exists_recent hallowed
  rw [WordDirectory.load_answers] at hloadAnswers
  refine ⟨i, j, hi, hj, fun word => ⟨fun hhas => ⟨answers, hloadAnswers, hhas⟩, ?_⟩,
    hloadAllowed, fun word hlisted => ?_⟩
  · rintro ⟨words, hread, hhas⟩
    obtain rfl := Except.ok.inj (hloadAnswers.symm.trans hread)
    exact hhas
  · exact guessable_of_has hallowed (WordDirectory.has_of_load_allowed hloadAllowed hlisted)
      (WordDirectory.upperAscii_of_listsAnswer hlisted)

end WordShelf

/-! ### A list that is edited -/

namespace Sample

/-- A directory that has nothing but English answers. -/
def answersIn (text : String) : WordDirectory :=
  ⟨"words", fun path => if path = "en/answers.txt" then some (.file text.toUTF8) else none⟩

/-- A word is put on the list of answers. -/
def addSlate : ShelfEvent := .edit (answersIn "crane\nslate").node?

/-- What becomes of a directory whose only answer is `CRANE`. -/
def shelfAfter (events : List ShelfEvent) : WordShelf :=
  (WordShelf.start 10 (answersIn "crane")).run events

/-- The English words of a kind, if a look-up gives any. -/
def english? (s : WordShelf) (kind : WordKind) : Option (List String) :=
  (s.words .english kind).toOption.map WordSet.words

theorem exists_words {s : WordShelf} {kind : WordKind} (h : (english? s kind).isSome) :
    ∃ words, s.words .english kind = .ok words := by
  rw [english?] at h
  cases hwords : s.words .english kind with
  | error cause =>
      rw [hwords] at h
      cases h
  | ok words => exact ⟨words, rfl⟩

end Sample

namespace WordShelf

/-- When everything has been forgotten since the list was edited, the new answer may be
guessed. -/
theorem slate_guessable_of_invalidate :
    (Sample.shelfAfter
      [.lookup .english .allowed, Sample.addSlate, .invalidate, .lookup .english .answers]
      ).Guessable .english "SLATE" := by
  obtain ⟨answers, hanswers⟩ : ∃ words, (Sample.shelfAfter
      [.lookup .english .allowed, Sample.addSlate, .invalidate]).words .english .answers =
        .ok words :=
    Sample.exists_words (by decide +kernel)
  obtain ⟨allowed, hallowed⟩ : ∃ words, (Sample.shelfAfter
      ([.lookup .english .allowed, Sample.addSlate, .invalidate] ++ .lookup .english .answers ::
        [])).words .english .allowed = .ok words :=
    Sample.exists_words (by decide +kernel)
  obtain ⟨i, j, -, hj, -, -, hguessable⟩ := guessable_of_listed hanswers hallowed
  have hlisted : (Sample.answersIn "crane\nslate").ListsAnswer .english "SLATE" :=
    ⟨WordList.parse "crane\nslate", rfl, by decide +kernel⟩
  have hafter : j = 3 ∨ j = 4 := by
    have hle : j ≤ 4 := hj.le
    have hkept := hj.kept
    rcases j with _ | _ | _ | j
    · exact (hkept (by simp)).elim
    · exact (hkept (by simp)).elim
    · exact (hkept (by simp)).elim
    · omega
  rcases hafter with rfl | rfl
  · exact hguessable "SLATE" hlisted
  · exact hguessable "SLATE" hlisted

/-- A word is put on the list of answers after the words that may be guessed were looked up.
Then it is an answer, and a guess at it is refused for not being a word. -/
theorem slate_refused :
    Sample.english? (Sample.shelfAfter [.lookup .english .allowed, Sample.addSlate]) .answers =
        some ["CRANE", "SLATE"] ∧
      Sample.english? (Sample.shelfAfter
          [.lookup .english .allowed, Sample.addSlate, .lookup .english .answers]) .allowed =
        some ["CRANE"] ∧
      GuessRules.check (Sample.shelfAfter
          [.lookup .english .allowed, Sample.addSlate, .lookup .english .answers]).dictionary
          5 "SLATE" "SLATE" (some .english) =
        .error (.refused (.wordNotAllowed "SLATE")) := by
  decide +kernel

end WordShelf

end WordDuel
