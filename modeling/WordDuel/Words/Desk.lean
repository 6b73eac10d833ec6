import WordDuel.Words.Cache
/-!
# WordDuel.Words.Desk

**A source of words that is asked through a cache.** The source may change at any time: it
may give other words, fail to give any, or give some again. Nobody tells the cache. A history
is what has happened to the two of them, one thing after the other, since there was a cache.
-/

namespace WordDuel

/-- A source of words with a cache in front of it. -/
structure WordDesk where
  /-- The source as it is now. -/
  source : WordSource
  /-- What is remembered of it. -/
  cache : WordCache
  /-- The time. -/
  now : Nat

/-- What can happen to a source with a cache. -/
inductive DeskEvent
  /-- The source is another one from now on. -/
  | change (source : WordSource)
  /-- Some time passes. -/
  | wait (time : Nat)
  /-- What is remembered is forgotten. -/
  | invalidate
  /-- The words of a language and kind are looked up. -/
  | lookup (l : Language) (kind : WordKind)

namespace WordDesk

/-- A source with a cache that remembers nothing. -/
def start (ttl : Nat) (source : WordSource) : WordDesk := ⟨source, .empty ttl, 0⟩

/-- Look words up now. -/
def ask (d : WordDesk) (l : Language) (kind : WordKind) : CacheAnswer × WordCache :=
  d.cache.lookup d.source d.now l kind

/-- What becomes of a source and its cache. -/
def after (d : WordDesk) : DeskEvent → WordDesk
  | .change source => { d with source }
  | .wait time => { d with now := d.now + time }
  | .invalidate => { d with cache := d.cache.invalidate }
  | .lookup l kind => { d with cache := (d.ask l kind).2 }

/-- What has become of a source and its cache after a history. -/
def run (d : WordDesk) (events : List DeskEvent) : WordDesk := events.foldl after d

theorem run_concat (d : WordDesk) (events : List DeskEvent) (event : DeskEvent) :
    d.run (events ++ [event]) = (d.run events).after event :=
  List.foldl_append

/-- The source and its cache after so many events of a history. -/
def moment (d : WordDesk) (events : List DeskEvent) (i : Nat) : WordDesk :=
  d.run (events.take i)

end WordDesk

end WordDuel
