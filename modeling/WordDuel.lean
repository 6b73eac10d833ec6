import WordDuel.Delivery.Channel
import WordDuel.Delivery.Sink
import WordDuel.Duel
import WordDuel.Event
import WordDuel.Failure
import WordDuel.GuessRules
import WordDuel.Json.Basic
import WordDuel.Json.Printer
import WordDuel.Json.Reader
import WordDuel.Language
import WordDuel.Lease.Claimant
import WordDuel.Lease.Contest
import WordDuel.Lease.Holder
import WordDuel.Lease.Network
import WordDuel.Lease.Pace
import WordDuel.Lease.Provider
import WordDuel.Lease.Register
import WordDuel.Lease.Server
import WordDuel.Lease.Session
import WordDuel.Lease.Upkeep
import WordDuel.Letter
import WordDuel.Lock.Errand
import WordDuel.Lock.Key
import WordDuel.Lock.Table
import WordDuel.Lock.Timeline
import WordDuel.Marking
import WordDuel.Number.Binary
import WordDuel.Number.Double
import WordDuel.Number.Numeral
import WordDuel.Play.Course
import WordDuel.Play.Move
import WordDuel.Play.Referee
import WordDuel.Play.Transition
import WordDuel.Refusal
import WordDuel.Service.Attempt
import WordDuel.Service.Mutation
import WordDuel.Service.Request
import WordDuel.Service.Server
import WordDuel.Service.Session
import WordDuel.Service.Turns
import WordDuel.Settings
import WordDuel.Settings.Variable
import WordDuel.Sheet
import WordDuel.SortedMap
import WordDuel.Status
import WordDuel.Storage.DatabaseError
import WordDuel.Storage.Deposit
import WordDuel.Storage.Edit
import WordDuel.Storage.Held
import WordDuel.Storage.Records
import WordDuel.Storage.Rows
import WordDuel.Storage.Schema
import WordDuel.Storage.Store
import WordDuel.Storage.Tables
import WordDuel.Text.Blank
import WordDuel.Text.CaseTable
import WordDuel.Text.Decimal
import WordDuel.Text.Hex
import WordDuel.Text.Uppercase
import WordDuel.Time.CivilDate
import WordDuel.Time.Instant
import WordDuel.Time.Rfc3339
import WordDuel.Time.Timestamp
import WordDuel.Uuid
import WordDuel.View
import WordDuel.Wire.Codec
import WordDuel.Wire.Duel
import WordDuel.Wire.Event
import WordDuel.Wire.Refusal
import WordDuel.Wire.View
import WordDuel.Words.Cache
import WordDuel.Words.Desk
import WordDuel.Words.Dictionary
import WordDuel.Words.Directory
import WordDuel.Words.Shelf
import WordDuel.Words.WordList
import WordDuel.Proofs.Effect
import WordDuel.Proofs.Structure
import WordDuel.Proofs.Legality
import WordDuel.Proofs.Rounds
import WordDuel.Proofs.Ledger
import WordDuel.Proofs.Secrecy
import WordDuel.Service.Traffic
import WordDuel.Proofs.Locks
import WordDuel.Proofs.Traffic
import WordDuel.Proofs.Exclusion
import WordDuel.Proofs.History
import WordDuel.Proofs.Points
import WordDuel.Proofs.Atomicity
import WordDuel.Proofs.Json
import WordDuel.Proofs.Codec
import WordDuel.Proofs.Scene
import WordDuel.Proofs.Serial
import WordDuel.Proofs.Rows
import WordDuel.Proofs.Writing
import WordDuel.Proofs.Reading
import WordDuel.Proofs.Refinement
import WordDuel.Proofs.Keeping
import WordDuel.Proofs.Waiting
import WordDuel.Proofs.Winning
import WordDuel.Proofs.Chronicle
import WordDuel.Proofs.Sight
import WordDuel.Proofs.Recall
import WordDuel.Proofs.Audience
import WordDuel.Proofs.Race
import WordDuel.Proofs.Register
import WordDuel.Proofs.Claimant
import WordDuel.Proofs.Contest
import WordDuel.Proofs.Tenure
import WordDuel.Proofs.Leftovers
import WordDuel.Proofs.Marks
import WordDuel.Proofs.NewRules
import WordDuel.Proofs.Freshness
import WordDuel.Proofs.Rulings
import WordDuel.Proofs.Statements
import WordDuel.Proofs.Agreement
import WordDuel.Proofs.Rewriting
import WordDuel.Proofs.Staleness
import WordDuel.Proofs.Identifiers
import WordDuel.Proofs.Locality
import WordDuel.Proofs.Independence
import WordDuel.Proofs.Openings
import WordDuel.Proofs.RoundTrip
import WordDuel.Proofs.Upkeep
import WordDuel.Proofs.Decoding
import WordDuel.Proofs.Reloading
import WordDuel.Proofs.Delivery
import WordDuel.Proofs.Solved
import WordDuel.Proofs.Uppercase
import WordDuel.Proofs.WordLists
import WordDuel.Proofs.Farewell
import WordDuel.Proofs.Numerals
import WordDuel.Proofs.Settings
import WordDuel.Proofs.Sheet
