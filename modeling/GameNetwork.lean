import GameNetwork.Lib.Runs
import GameNetwork.Lib.Bytes
import GameNetwork.Lib.Serial
import GameNetwork.Lib.FirstIndex
import GameNetwork.Crypto
import GameNetwork.Socket
import GameNetwork.Packet
import GameNetwork.Server
import GameNetwork.Client
import GameNetwork.Channel
import GameNetwork.Proofs.Written
import GameNetwork.Proofs.Ideal
import GameNetwork.Proofs.Reacts
import GameNetwork.Proofs.Verified
import GameNetwork.Proofs.Body
import GameNetwork.Proofs.Listen
import GameNetwork.Proofs.Tables
import GameNetwork.Proofs.Heard
import GameNetwork.Proofs.Steps
import GameNetwork.Proofs.Count
import GameNetwork.Proofs.Sessions
import GameNetwork.Proofs.KeyConfirmation
import GameNetwork.Proofs.Disconnects
import GameNetwork.Proofs.Rejected
import GameNetwork.Proofs.GameData
import GameNetwork.Proofs.Reconnect
import GameNetwork.Proofs.Propagate
import GameNetwork.Proofs.Delivery
import GameNetwork.Proofs.Handshake
import GameNetwork.Proofs.Challenges
import GameNetwork.System
import GameNetwork.Proofs.Room
import GameNetwork.Proofs.Message
import GameNetwork.Proofs.Exchange
import GameNetwork.Proofs.Consistent
import GameNetwork.Proofs.ConsistentClient
import GameNetwork.Proofs.ConsistentServer
import GameNetwork.Proofs.Agreement
import GameNetwork.Proofs.Parties
import GameNetwork.Lib.Crc
import GameNetwork.Proofs.Crc
import GameNetwork.Proofs.Reversal
import GameNetwork.Lib.RunningSums
import GameNetwork.Proofs.Fletcher
import GameNetwork.Proofs.Collisions
import GameNetwork.Proofs.Corruption
import GameNetwork.Fields
import GameNetwork.Proofs.Bounds
import GameNetwork.Proofs.Serialised
import GameNetwork.Float
import GameNetwork.Proofs.Float
import GameNetwork.Proofs.RoundTrip
import GameNetwork.Proofs.Reported
import GameNetwork.Proofs.Stability
import GameNetwork.Proofs.Finality
import GameNetwork.Uplink
import GameNetwork.Proofs.Replay
import GameNetwork.Proofs.Authenticity
import GameNetwork.Proofs.Escapes
import GameNetwork.Proofs.Refused
import GameNetwork.Proofs.Owner
import GameNetwork.Proofs.Removal
import GameNetwork.Proofs.Withdrawn
import GameNetwork.Proofs.Decoding
import GameNetwork.Proofs.Repeated
import GameNetwork.Proofs.Capacity
import GameNetwork.Lib.Refinement
import GameNetwork.Registry
import GameNetwork.Proofs.Teardown
import GameNetwork.Proofs.Shutdown
import GameNetwork.Proofs.History
import GameNetwork.Proofs.Registered
import GameNetwork.Proofs.Routing
import GameNetwork.Proofs.Returns
import GameNetwork.Proofs.Answers
import GameNetwork.Lib.Numbered
import GameNetwork.Proofs.Numbering
import GameNetwork.Proofs.Lobby
import GameNetwork.Proofs.Leaving
import GameNetwork.CrcTable
import GameNetwork.Proofs.CrcTable
import GameNetwork.Proofs.Adler
import GameNetwork.Proofs.Closed
import GameNetwork.Proofs.Stranded
import GameNetwork.Lib.Ownership
import GameNetwork.Handles
import GameNetwork.Proofs.Handles
import GameNetwork.SockAddr
import GameNetwork.Proofs.Addresses
import GameNetwork.Proofs.Lifetime
import GameNetwork.Proofs.Lockout
import GameNetwork.Proofs.Drift
