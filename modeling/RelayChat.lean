import RelayChat.Client.ConfigJson
import RelayChat.Client.Script
import RelayChat.Proofs.Address.Mask
import RelayChat.Proofs.Batch
import RelayChat.Proofs.Channel.History
import RelayChat.Proofs.Channel.Normal
import RelayChat.Proofs.Client.Announcing
import RelayChat.Proofs.Client.Membership
import RelayChat.Proofs.Client.Rollback
import RelayChat.Proofs.Command.Body
import RelayChat.Proofs.Command.Json
import RelayChat.Proofs.Message.Refusal
import RelayChat.Proofs.Message.Tagged
import RelayChat.Proofs.Ping
import RelayChat.Proofs.Registration
import RelayChat.Proofs.ValueText
import RelayChat.Proofs.Address.Agreement
import RelayChat.Proofs.Client.ConfigJson
import RelayChat.Proofs.Message.Lookup
