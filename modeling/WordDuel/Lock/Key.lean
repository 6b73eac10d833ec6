import WordDuel.Uuid
/-!
# WordDuel.Lock.Key

**What a lock is known by**: a text. Every room has a lock of its own.
-/

namespace WordDuel

/-- The key of the lock under which a room is changed. -/
def roomLockKey (room : RoomId) : String := "room:" ++ room.toText

end WordDuel
