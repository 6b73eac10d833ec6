import WordDuel.Words.Cache
import WordDuel.Words.Directory
/-!
# WordDuel.Words.Shelf

**Word lists in files that are read through a cache.** The files may be edited at any time;
nobody tells the cache. A history is what has happened to them, one thing after the other,
since there was a cache.
-/

namespace WordDuel

/-- A directory of word lists with a cache in front of it. -/
structure WordShelf where
  /-- The directory as it is now. -/
  files : WordDirectory
  /-- What is remembered of it. -/
  cache : WordCache
  /-- The time. -/
  now : Nat

/-- What can happen to a directory with a cache. -/
inductive ShelfEvent
  /-- Files are edited, so that this is found under the paths. -/
  | edit (node? : String → Option FileNode)
  /-- Some time passes. -/
  | wait (time : Nat)
  /-- What is remembered is forgotten. -/
  | invalidate
  /-- The words of a language and kind are looked up. -/
  | lookup (l : Language) (kind : WordKind)

namespace WordShelf

/-- A directory with a cache that remembers nothing. -/
def start (ttl : Nat) (files : WordDirectory) : WordShelf := ⟨files, .empty ttl, 0⟩

/-- Look words up now. -/
def ask (s : WordShelf) (l : Language) (kind : WordKind) : CacheAnswer × WordCache :=
  s.cache.lookup s.files.load s.now l kind

/-- The words that a look-up gives now, if it does. -/
def words (s : WordShelf) (l : Language) (kind : WordKind) : Except DictionaryCause WordSet :=
  (s.ask l kind).1.words

/-- What becomes of a directory and its cache. -/
def after (s : WordShelf) : ShelfEvent → WordShelf
  | .edit node? => { s with files := { s.files with node? } }
  | .wait time => { s with now := s.now + time }
  | .invalidate => { s with cache := s.cache.invalidate }
  | .lookup l kind => { s with cache := (s.ask l kind).2 }

/-- What has become of a directory and its cache after a history. -/
def run (s : WordShelf) (events : List ShelfEvent) : WordShelf := events.foldl after s

end WordShelf

end WordDuel
