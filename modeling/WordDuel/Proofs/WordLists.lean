import WordDuel.Proofs.Staleness
import WordDuel.Proofs.Uppercase
/-!
# WordDuel.Proofs.WordLists

**Lists of words as texts.** A text lists the words of its lines, so two texts one below the other
list the words of both (`parse_append`). A word of a list is on one line, has no white space at its
ends, is no comment and is in upper case (`IsEntry`), and upper case is final; so a line that holds
nothing but the word lists the word again, and a set of words can be written down in any order and
read back (`parse_write`).
-/

namespace WordDuel

namespace Text

/-! ### White space at the ends -/

/-- Neither the first nor the last character is white space. -/
structure Trimmed (cs : List Char) : Prop where
  first : ∀ c, cs.head? = some c → isBlank c = false
  last : ∀ c, cs.getLast? = some c → isBlank c = false

theorem dropWhile_of_head? {cs : List Char} (h : ∀ c, cs.head? = some c → isBlank c = false) :
    cs.dropWhile isBlank = cs := by
  cases cs with
  | nil => rfl
  | cons c cs => rw [List.dropWhile_cons, h c rfl, if_neg Bool.false_ne_true]

theorem isBlank_of_head?_dropWhile {l : List Char} {c : Char}
    (h : (l.dropWhile isBlank).head? = some c) : isBlank c = false := by
  have hnot := List.head?_dropWhile_not isBlank l
  rw [h] at hnot
  exact hnot

theorem trimChars_of_trimmed {cs : List Char} (h : Trimmed cs) : trimChars cs = cs := by
  have hback : cs.reverse.dropWhile isBlank = cs.reverse := by
    refine dropWhile_of_head? ?_
    rw [List.head?_reverse]
    exact h.last
  rw [trimChars, dropWhile_of_head? h.first, hback, List.reverse_reverse]

theorem trimmed_trimChars (cs : List Char) : Trimmed (trimChars cs) where
  first c hc := by
    -- What is dropped at the end leaves the beginning alone.
    have hbegins : trimChars cs <+: cs.dropWhile isBlank := by
      have hends := List.dropWhile_suffix (l := (cs.dropWhile isBlank).reverse) isBlank
      have hreversed := List.reverse_prefix.2 hends
      rwa [List.reverse_reverse] at hreversed
    obtain ⟨rest, hrest⟩ := hbegins
    refine isBlank_of_head?_dropWhile (l := cs) ?_
    rw [← hrest, List.head?_append, hc]
    rfl
  last c hc := by
    rw [trimChars, List.getLast?_reverse] at hc
    exact isBlank_of_head?_dropWhile hc

theorem mem_of_mem_trimChars {cs : List Char} {c : Char} (h : c ∈ trimChars cs) : c ∈ cs := by
  have hdropped := List.mem_reverse.1 h
  have hkept := List.mem_reverse.1 ((List.dropWhile_sublist isBlank).subset hdropped)
  exact (List.dropWhile_sublist isBlank).subset hkept

/-- Upper case neither makes nor removes white space at the ends. -/
theorem Trimmed.upper {cs : List Char} (h : Trimmed cs) : Trimmed (cs.flatMap upperChar) where
  first u hu := by
    obtain ⟨c, hc, hupper⟩ := head?_flatMap_upperChar hu
    exact of_mem_upperChar (P := fun u => isBlank u = false) (fun _ hu => hu.isBlank)
      (h.first c hc) hupper
  last u hu := by
    obtain ⟨c, hc, hupper⟩ := getLast?_flatMap_upperChar hu
    exact of_mem_upperChar (P := fun u => isBlank u = false) (fun _ hu => hu.isBlank)
      (h.last c hc) hupper

end Text

/-! ### Sets of words -/

/-- A set is known by its words. -/
theorem WordSet.ext_has {a b : WordSet} (h : ∀ w, a.has w ↔ b.has w) : a = b := by
  refine SortedMap.ext_get? fun w => ?_
  have hw := h w
  rw [WordSet.has, WordSet.has, SortedMap.contains, SortedMap.contains] at hw
  cases ha : a.get? w <;> cases hb : b.get? w <;> simp [ha, hb] at hw ⊢

theorem WordSet.has_union (a b : WordSet) (w : String) :
    WordSet.has (a.union b) w ↔ a.has w ∨ b.has w :=
  SortedMap.contains_union_iff a b w

namespace WordList

/-! ### Lines -/

theorem lines_ne_nil (cs : List Char) : lines cs ≠ [] := by
  cases cs with
  | nil => simp [lines]
  | cons c cs =>
      rw [lines]
      split
      · simp
      · split <;> simp

theorem lines_append (a b : List Char) : lines (a ++ '\n' :: b) = lines a ++ lines b := by
  induction a with
  | nil => rfl
  | cons c a ih =>
      obtain ⟨line, more, hlines⟩ := List.exists_cons_of_ne_nil (lines_ne_nil a)
      by_cases hc : c = '\n'
      · simp [lines, hc, ih]
      · simp [lines, hc, ih, hlines]

theorem lines_of_not_mem {cs : List Char} (h : '\n' ∉ cs) : lines cs = [cs] := by
  induction cs with
  | nil => rfl
  | cons c cs ih =>
      rw [List.mem_cons, not_or] at h
      simp [lines, Ne.symm h.1, ih h.2]

theorem not_mem_of_mem_lines {cs line : List Char} (h : line ∈ lines cs) : '\n' ∉ line := by
  induction cs generalizing line with
  | nil =>
      obtain rfl : line = [] := by simpa [lines] using h
      simp
  | cons c cs ih =>
      obtain ⟨first, more, hlines⟩ := List.exists_cons_of_ne_nil (lines_ne_nil cs)
      rw [hlines] at ih
      by_cases hc : c = '\n'
      · simp only [lines, hc, hlines, if_true, List.mem_cons] at h
        rcases h with rfl | h
        · simp
        · exact ih (List.mem_cons.2 h)
      · simp only [lines, hc, hlines, if_false, List.mem_cons] at h
        rcases h with rfl | h
        · simpa [Ne.symm hc] using ih List.mem_cons_self
        · exact ih (List.mem_cons_of_mem _ h)

/-! ### Words of a list -/

theorem has_parse_iff {text word : String} :
    (parse text).has word ↔ ∃ line ∈ lines text.toList, wordOnLine? line = some word := by
  rw [parse, WordSet.has_ofWords, List.mem_filterMap]

/-- Two texts one below the other list the words of both. -/
theorem parse_append (a b : String) : parse (a ++ "\n" ++ b) = (parse a).union (parse b) := by
  have hlines : lines (a ++ "\n" ++ b).toList = lines a.toList ++ lines b.toList := by
    rw [← lines_append]
    simp
  refine WordSet.ext_has fun word => ?_
  rw [WordSet.has_union, has_parse_iff, has_parse_iff, has_parse_iff, hlines]
  simp only [List.mem_append, or_and_right, exists_or]

/-- A word as a list has it, which could be a line of the list. -/
structure IsEntry (word : String) : Prop where
  nonempty : word ≠ ""
  trimmed : Text.Trimmed word.toList
  no_comment : word.toList.head? ≠ some '#'
  upper : Text.upper word = word
  one_line : '\n' ∉ word.toList

theorem isEntry_of_wordOnLine? {line : List Char} {word : String} (hline : '\n' ∉ line)
    (h : wordOnLine? line = some word) : IsEntry word := by
  have htrimmed := Text.trimmed_trimChars line
  have hmem (c : Char) (hc : c ∈ Text.trimChars line) : c ∈ line := Text.mem_of_mem_trimChars hc
  rw [wordOnLine?] at h
  split at h
  · cases h
  · next c cs hchars =>
    split at h
    · cases h
    · next hhash =>
      rw [hchars] at htrimmed hmem
      obtain rfl := Option.some.inj h
      have htoList : (Text.upper (String.ofList (c :: cs))).toList =
          (c :: cs).flatMap Text.upperChar := by
        rw [Text.toList_upper, String.toList_ofList]
      refine ⟨?_, ?_, ?_, Text.upper_upper _, ?_⟩
      · rw [Ne, ← String.toList_eq_nil_iff, htoList, List.flatMap_cons]
        exact List.append_ne_nil_of_left_ne_nil (Text.upperChar_ne_nil c) _
      · rw [htoList]
        exact htrimmed.upper
      · rw [htoList]
        intro hhead
        obtain ⟨d, hd, hupper⟩ := Text.head?_flatMap_upperChar hhead
        obtain rfl := Option.some.inj hd
        exact Text.of_mem_upperChar (P := (· ≠ '#')) (fun _ hu => hu.ne_hash) hhash hupper rfl
      · rw [htoList]
        intro hfeed
        obtain ⟨d, hd, hupper⟩ := List.mem_flatMap.1 hfeed
        have hother : d ≠ '\n' := by
          rintro rfl
          exact hline (hmem _ hd)
        refine Text.of_mem_upperChar (P := (· ≠ '\n')) (fun u hu heq => ?_) hother hupper rfl
        have hblank := hu.isBlank
        rw [heq] at hblank
        cases hblank

theorem isEntry_of_has_parse {text word : String} (h : (parse text).has word) : IsEntry word := by
  obtain ⟨line, hline, hword⟩ := has_parse_iff.1 h
  exact isEntry_of_wordOnLine? (not_mem_of_mem_lines hline) hword

/-- A line that is an entry lists itself. -/
theorem IsEntry.wordOnLine? {word : String} (h : IsEntry word) :
    wordOnLine? word.toList = some word := by
  rw [WordList.wordOnLine?, Text.trimChars_of_trimmed h.trimmed]
  cases hchars : word.toList with
  | nil => exact (h.nonempty (String.toList_eq_nil_iff.1 hchars)).elim
  | cons c cs =>
      have hhash : c ≠ '#' := by
        rintro rfl
        exact h.no_comment (by rw [hchars]; rfl)
      dsimp only
      rw [if_neg hhash, ← hchars, String.ofList_toList, h.upper]

theorem IsEntry.has_parse_iff {word other : String} (h : IsEntry word) :
    (parse word).has other ↔ other = word := by
  rw [WordList.has_parse_iff, lines_of_not_mem h.one_line]
  simp [h.wordOnLine?, eq_comm]

/-! ### Writing words down -/

/-- Words one per line. -/
def write (words : List String) : String := "\n".intercalate words

theorem has_parse_write {words : List String} (h : ∀ word ∈ words, IsEntry word) (word : String) :
    (parse (write words)).has word ↔ word ∈ words := by
  induction words with
  | nil => simp [write, WordList.has_parse_iff, lines, wordOnLine?]
  | cons first words ih =>
      have hrest := ih fun w hw => h w (List.mem_cons_of_mem _ hw)
      have hfirst : (parse first).has word ↔ word = first :=
        (h first List.mem_cons_self).has_parse_iff
      cases words with
      | nil => simpa [write] using hfirst
      | cons second words =>
          have hwrite : write (first :: second :: words) =
              first ++ "\n" ++ write (second :: words) := String.intercalate_cons_cons
          rw [hwrite, parse_append, WordSet.has_union, hfirst, hrest]
          exact List.mem_cons.symm

/-- The words of a list, written down one per line in any order, make up the same list. -/
theorem parse_write {text : String} {words : List String}
    (h : ∀ word, word ∈ words ↔ (parse text).has word) : parse (write words) = parse text := by
  refine WordSet.ext_has fun word => ?_
  rw [has_parse_write, h]
  intro word hword
  exact isEntry_of_has_parse ((h word).1 hword)

/-- It makes no difference whether the last line is ended. -/
theorem parse_line_feed (text : String) : parse (text ++ "\n") = parse text := by
  have hempty : parse "" = .empty := rfl
  have happend := parse_append text ""
  rwa [String.append_empty, hempty] at happend

end WordList

/-! ### Words that may be guessed -/

namespace WordDirectory

variable {dir : WordDirectory} {l : Language} {kind : WordKind}

/-- What stands in the file of a list, which is nothing if there is no file. -/
inductive Reads (dir : WordDirectory) (l : Language) (kind : WordKind) : String → Prop
  | file {bytes : ByteArray} {text : String} (hnode : dir.node? (path l kind) = some (.file bytes))
    (htext : String.fromUTF8? bytes = some text) : Reads dir l kind text
  | missing (hnode : dir.node? (path l kind) = none) : Reads dir l kind ""

theorem Reads.readList {text : String} (h : dir.Reads l kind text) :
    dir.readList l kind = .ok (WordList.parse text) := by
  rw [WordDirectory.readList]
  cases h with
  | file hnode htext =>
      rw [hnode]
      dsimp only
      rw [htext]
  | missing hnode =>
      rw [hnode]
      rfl

end WordDirectory

namespace WordList

/-- A text made of two texts, one below the other, lists the words of both and no others. The words
of a text are not empty, have no white space at their ends, do not begin with `#` and are in upper
case, and written down one per line, in any order and as often as you like, they are the words of
the new text. So the words that may be guessed are those of the two lists of a language, one below
the other, whether the lists are given as texts or read from files. -/
theorem parse_joined :
    (∀ a b : String, parse (a ++ "\n" ++ b) = (parse a).union (parse b) ∧
      ∀ word, (parse (a ++ "\n" ++ b)).has word ↔ (parse a).has word ∨ (parse b).has word) ∧
    (∀ (text : String) (words : List String), (∀ word, word ∈ words ↔ (parse text).has word) →
      parse (write words) = parse text ∧ parse (write words ++ "\n") = parse text) ∧
    (∀ text word : String, (parse text).has word →
      word ≠ "" ∧ Text.trim word = word ∧ word.toList.head? ≠ some '#' ∧
        Text.upper word = word) ∧
    (∀ (lexicon : Lexicon) (l : Language) (allowed answers : String),
      (lexicon.withLanguage l allowed answers).allowed l = parse (allowed ++ "\n" ++ answers)) ∧
    ∀ (dir : WordDirectory) (l : Language) (allowed answers : String),
      dir.Reads l .allowed allowed → dir.Reads l .answers answers →
      dir.load l .allowed = .ok (parse (allowed ++ "\n" ++ answers)) := by
  refine ⟨?_, ?_, ?_, ?_, ?_⟩
  · intro a b
    have hunion := parse_append a b
    refine ⟨hunion, fun word => ?_⟩
    rw [hunion]
    exact WordSet.has_union _ _ word
  · intro text words hwords
    have hwrite := parse_write hwords
    exact ⟨hwrite, (parse_line_feed _).trans hwrite⟩
  · intro text word hword
    have hentry := isEntry_of_has_parse hword
    refine ⟨hentry.nonempty, ?_, hentry.no_comment, hentry.upper⟩
    rw [Text.trim, Text.trimChars_of_trimmed hentry.trimmed, String.ofList_toList]
  · intro lexicon l allowed answers
    rw [parse_append, Lexicon.withLanguage]
    exact if_pos rfl
  · intro dir l allowed answers hallowed hanswers
    rw [parse_append]
    exact WordDirectory.load_allowed_eq_ok_iff.2
      ⟨_, _, hanswers.readList, hallowed.readList, rfl⟩

end WordList

namespace Sample

/-- A list with a comment, blank lines, a carriage return and a letter that expands. -/
def untidyList : String := "# words\n pizza \r\n\n\u3000\n\tMamma\nstra\u00dfe"

/-- A directory with both lists of English words. -/
def bothLists : WordDirectory :=
  ⟨"words", fun path =>
    if path = "en/allowed.txt" then some (.file untidyList.toUTF8)
    else if path = "en/answers.txt" then some (.file "crane".toUTF8)
    else none⟩

end Sample

namespace WordList

theorem parse_joined_of_untidy_list :
    (parse Sample.untidyList).words = ["MAMMA", "PIZZA", "STRASSE"] ∧
      parse (write ["STRASSE", "MAMMA", "PIZZA"] ++ "\n") = parse Sample.untidyList ∧
      (∀ word ∈ ["STRASSE", "MAMMA", "PIZZA"], Text.upper word = word) ∧
      Sample.bothLists.load .english .allowed =
        .ok (parse (Sample.untidyList ++ "\n" ++ "crane")) := by
  obtain ⟨-, hwritten, hwords, -, hfiles⟩ := parse_joined
  have hlisted : (parse Sample.untidyList).words = ["MAMMA", "PIZZA", "STRASSE"] := by
    decide +kernel
  have horder (word : String) :
      word ∈ ["STRASSE", "MAMMA", "PIZZA"] ↔ (parse Sample.untidyList).has word := by
    rw [WordSet.has_iff, hlisted]
    simp only [List.mem_cons, List.not_mem_nil, or_false]
    grind
  refine ⟨hlisted, (hwritten _ _ horder).2, ?_, ?_⟩
  · intro word hword
    exact (hwords _ _ ((horder word).1 hword)).2.2.2
  · exact hfiles _ _ _ _ (.file rfl (by decide +kernel)) (.file rfl (by decide +kernel))

end WordList

end WordDuel
