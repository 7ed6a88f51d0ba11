import MediaSeal.Aes.Block
import MediaSeal.Aes.Cipher
import MediaSeal.Aes.Column
import MediaSeal.Aes.Inverse
import MediaSeal.Aes.Substitution
import MediaSeal.Bytes
import MediaSeal.Call.Audit
import MediaSeal.Call.Basic
import MediaSeal.Call.Simulation
import MediaSeal.Call.Snapshot
import MediaSeal.Cipher.Algorithm
import MediaSeal.Cipher.Cbc
import MediaSeal.Cipher.Error
import MediaSeal.Cipher.FrameKey
import MediaSeal.Cipher.Gcm
import MediaSeal.Cipher.Ghash
import MediaSeal.Cipher.Padding
import MediaSeal.CommandLine.Arguments
import MediaSeal.CommandLine.LogFilter
import MediaSeal.CommandLine.Program
import MediaSeal.Endpoint
import MediaSeal.Frame.Basic
import MediaSeal.Frame.Marker
import MediaSeal.Frame.Sealed
import MediaSeal.Hash.Hmac
import MediaSeal.Hash.Sha256
import MediaSeal.Key.Error
import MediaSeal.Key.Material
import MediaSeal.Key.Participant
import MediaSeal.Key.Ring
import MediaSeal.Key.Store
import MediaSeal.Main
import MediaSeal.MediaPath
import MediaSeal.Outcome
import MediaSeal.Protection.Decrypt
import MediaSeal.Protection.Encrypt
import MediaSeal.Protection.Error
import MediaSeal.Random.ChaCha20
import MediaSeal.Random.Entropy
import MediaSeal.Scenario.Assignments
import MediaSeal.Scenario.Basic
import MediaSeal.Scenario.Reading
import MediaSeal.Session.Basic
import MediaSeal.Session.Frames
import MediaSeal.Session.Observer
import MediaSeal.Session.Registry
import MediaSeal.Session.Rings
import MediaSeal.Text.Hex
import MediaSeal.Text.Quoted
import MediaSeal.Text.Visible
import MediaSeal.Proofs.Generations
import MediaSeal.Proofs.RingHistory
import MediaSeal.Proofs.ForwardSearch
import MediaSeal.Proofs.CipherInverse
import MediaSeal.Proofs.FrameLayout
import MediaSeal.Proofs.RoundTrip
import MediaSeal.Proofs.StoreKeys
import MediaSeal.Proofs.Reception
import MediaSeal.Proofs.Synchrony
import MediaSeal.Proofs.TagCoverage
import MediaSeal.Proofs.Exemption
import MediaSeal.Proofs.Bystanders
import MediaSeal.Proofs.Sending
import MediaSeal.Proofs.History
import MediaSeal.Proofs.Reports
import MediaSeal.Proofs.FrameReading
import MediaSeal.Proofs.CipherConverse
import MediaSeal.Proofs.AcceptedFrames
import MediaSeal.Proofs.AuditVerdict
import MediaSeal.Proofs.CallSteps
import MediaSeal.Proofs.LawfulCalls
import MediaSeal.Proofs.Standing
import MediaSeal.Proofs.Rounds
import MediaSeal.Proofs.SimulationReport
import MediaSeal.Proofs.AuditedRuns
import MediaSeal.Proofs.FailureTolerance
import MediaSeal.Proofs.StoreRuns
import MediaSeal.Proofs.Lockstep
import MediaSeal.Proofs.Isolation
import MediaSeal.Proofs.RejectedFrames
import MediaSeal.Proofs.SharedUse
import MediaSeal.Proofs.KeyStreamBytes
import MediaSeal.Proofs.Vectors
import MediaSeal.Proofs.Controls
import MediaSeal.Proofs.Tenures
import MediaSeal.Proofs.PathOwners
import MediaSeal.Proofs.Visits
import MediaSeal.Proofs.Deregistration
import MediaSeal.Proofs.Footprint
import MediaSeal.Proofs.StoreStates
import MediaSeal.Proofs.InPlaceCalls
import MediaSeal.Proofs.Exhaustion
import MediaSeal.Proofs.IndexChecks
import MediaSeal.Proofs.Redelivery
import MediaSeal.Proofs.AuditFindings
import MediaSeal.Proofs.MarkerBypass
import MediaSeal.Proofs.Starting
import MediaSeal.Proofs.Schedule
import MediaSeal.Proofs.Accounting
import MediaSeal.Proofs.Attempts
import MediaSeal.Proofs.GuardedBytes
import MediaSeal.Proofs.GuardedFrames
