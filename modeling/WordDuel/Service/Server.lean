import WordDuel.Lease.Network
import WordDuel.Service.Request
import WordDuel.Settings
import WordDuel.Storage.Tables
import WordDuel.Words.Directory
/-!
# WordDuel.Service.Server

**A server made from its settings**: a service on empty tables, with the words of a
directory, that writes events to the log and hands them to whoever subscribes. The
directory is fixed, so that it does not show for how long words are remembered.
-/

namespace WordDuel

/-- A server that is ready to answer. -/
structure Server where
  service : Service Tables
  /-- The rules in force. -/
  rules : Rules
  /-- The words. -/
  dictionary : Dictionary
  /-- What has been stored and announced. -/
  world : World Tables

namespace Server

/-- Find the locks that the settings ask for. Locks within the process are always
there. -/
def findLocks (settings : Settings) (network : Network) : Except NetworkFault Unit :=
  match settings.lockBackend with
  | .inProcess => .ok ()
  | .shared => network.connect

/-- Start a server with a subscriber to its events. -/
def start (settings : Settings) (words : WordDirectory) (network : Network)
    (subscriber : Sink) : Except NetworkFault Server := do
  findLocks settings network
  return {
    service := ⟨.tables, settings.exclusiveRowLock⟩
    rules := ⟨settings.wordLength, settings.maxAttempts⟩
    dictionary := .ofSource words.load
    world := ⟨.empty, .bus [.logger, subscriber]⟩ }

end Server

end WordDuel
