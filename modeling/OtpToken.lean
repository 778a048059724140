import OtpToken.Client.Call
import OtpToken.Line.Fault
import OtpToken.Proofs.Atomic
import OtpToken.Proofs.Checksum
import OtpToken.Proofs.Client.Agreement
import OtpToken.Proofs.Client.Asked
import OtpToken.Proofs.Client.Call
import OtpToken.Proofs.Client.Codes
import OtpToken.Proofs.Client.Connect
import OtpToken.Proofs.Client.Counter
import OtpToken.Proofs.Client.Expected
import OtpToken.Proofs.Client.Given
import OtpToken.Proofs.Client.Handover
import OtpToken.Proofs.Client.Heard
import OtpToken.Proofs.Client.History
import OtpToken.Proofs.Client.Latch
import OtpToken.Proofs.Client.Logins
import OtpToken.Proofs.Client.Loss
import OtpToken.Proofs.Client.Noise
import OtpToken.Proofs.Client.Operation
import OtpToken.Proofs.Client.Override
import OtpToken.Proofs.Client.Padding
import OtpToken.Proofs.Client.Pins
import OtpToken.Proofs.Client.Reassembly
import OtpToken.Proofs.Client.Refusal
import OtpToken.Proofs.Client.Replies
import OtpToken.Proofs.Client.Reset
import OtpToken.Proofs.Client.SafeContents
import OtpToken.Proofs.Client.SafeWrite
import OtpToken.Proofs.Client.Single
import OtpToken.Proofs.Client.SlotWrite
import OtpToken.Proofs.Client.Slots
import OtpToken.Proofs.Client.Stale
import OtpToken.Proofs.Client.Texts
import OtpToken.Proofs.Client.Tidy
import OtpToken.Proofs.Client.Trace
import OtpToken.Proofs.Client.Transact
import OtpToken.Proofs.Client.Wire
import OtpToken.Proofs.Code
import OtpToken.Proofs.Command
import OtpToken.Proofs.Command.Carry
import OtpToken.Proofs.Command.Domain
import OtpToken.Proofs.Command.Offsets
import OtpToken.Proofs.Command.Readable
import OtpToken.Proofs.Damage
import OtpToken.Proofs.Digits
import OtpToken.Proofs.Field
import OtpToken.Proofs.Field.Memory
import OtpToken.Proofs.Field.Steps
import OtpToken.Proofs.Frame
import OtpToken.Proofs.Hex
import OtpToken.Proofs.Lossless
import OtpToken.Proofs.Record
import OtpToken.Proofs.Secret
import OtpToken.Proofs.Session
import OtpToken.Proofs.Standard
import OtpToken.Proofs.Text
import OtpToken.Proofs.Token.Account
import OtpToken.Proofs.Token.Alike
import OtpToken.Proofs.Token.Authority
import OtpToken.Proofs.Token.Change
import OtpToken.Proofs.Token.Checked
import OtpToken.Proofs.Token.Chunk
import OtpToken.Proofs.Token.Codes
import OtpToken.Proofs.Token.Counter
import OtpToken.Proofs.Token.Dialogue
import OtpToken.Proofs.Token.Effect
import OtpToken.Proofs.Token.Filled
import OtpToken.Proofs.Token.Hidden
import OtpToken.Proofs.Token.Isolation
import OtpToken.Proofs.Token.Lockout
import OtpToken.Proofs.Token.Masked
import OtpToken.Proofs.Token.Periods
import OtpToken.Proofs.Token.Place
import OtpToken.Proofs.Token.ReadBack
import OtpToken.Proofs.Token.Refused
import OtpToken.Proofs.Token.Rekeyed
import OtpToken.Proofs.Token.Rules
import OtpToken.Proofs.Token.SafeGate
import OtpToken.Proofs.Token.Sound
import OtpToken.Proofs.Token.Staging
import OtpToken.Proofs.Token.Stored
import OtpToken.Proofs.Token.Tellable
import OtpToken.Proofs.Words
import OtpToken.Token.Send
