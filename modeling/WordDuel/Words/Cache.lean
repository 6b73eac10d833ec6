import WordDuel.Words.Dictionary
/-!
# WordDuel.Words.Cache

**Remembering words for a while.** A cache keeps what a source gave for a language
and kind until it is as old as the time to live; a failure to load is not kept.
Times are counted in nanoseconds on a clock that never goes back.
-/

namespace WordDuel

/-- Words and when they were loaded. -/
structure CachedWords where
  words : WordSet
  /-- The time of loading. -/
  loadedAt : Nat

/-- What is remembered of a source. -/
structure WordCache where
  /-- The age at which words are loaded anew. -/
  ttl : Nat
  /-- What is remembered for a language and kind. -/
  entry : Language → WordKind → Option CachedWords

/-- What a look-up in a cache gives. -/
structure CacheAnswer where
  /-- The words, or why there are none. -/
  words : Except DictionaryCause WordSet
  /-- Whether the source was asked. -/
  loaded : Bool

namespace WordCache

/-- The cache that remembers nothing. -/
def empty (ttl : Nat) : WordCache := ⟨ttl, fun _ _ => none⟩

/-- Forget everything. -/
def invalidate (c : WordCache) : WordCache := empty c.ttl

/-- What is remembered and still young enough to be given out. -/
def fresh? (c : WordCache) (now : Nat) (l : Language) (kind : WordKind) : Option WordSet :=
  match c.entry l kind with
  | some e => if now - e.loadedAt < c.ttl then some e.words else none
  | none => none

/-- Remember words. -/
def remember (c : WordCache) (now : Nat) (l : Language) (kind : WordKind) (words : WordSet) :
    WordCache :=
  { c with entry := fun l' kind' =>
      if l' = l ∧ kind' = kind then some ⟨words, now⟩ else c.entry l' kind' }

/-- Look words up at a time, asking the source if nothing fresh is remembered. -/
def lookup (c : WordCache) (source : WordSource) (now : Nat) (l : Language) (kind : WordKind) :
    CacheAnswer × WordCache :=
  match c.fresh? now l kind with
  | some words => (⟨.ok words, false⟩, c)
  | none =>
    match source l kind with
    | .ok words => (⟨.ok words, true⟩, c.remember now l kind words)
    | .error cause => (⟨.error cause, true⟩, c)

end WordCache

end WordDuel
