import Pyrxd.Lib.Prog
import Pyrxd.Lib.Interleave
import Pyrxd.Lib.Sha256
import Pyrxd.Btc.Timelock
import Pyrxd.Btc.Locator
import Pyrxd.Btc.RawTx
import Pyrxd.Eth.Locator
import Pyrxd.Glyph.Credential
import Pyrxd.Gravity.SwapState
import Pyrxd.Gravity.Terms
import Pyrxd.Gravity.Record
import Pyrxd.Gravity.MarginPolicy
import Pyrxd.Gravity.TimelockMargin
import Pyrxd.Gravity.ClaimFinality
import Pyrxd.Gravity.Coordinator
import Pyrxd.Gravity.Steps
import Pyrxd.Gravity.StepRules
import Pyrxd.Gravity.CoordinatorSafety
import Pyrxd.Gravity.SeenStore
import Pyrxd.Gravity.FundingOnce
import Pyrxd.Gravity.FundingTerms
import Pyrxd.Gravity.RefundWindow
import Pyrxd.Watch.Decide
import Pyrxd.Watch.DecideSpec
import Pyrxd.Watch.DecideSafety
import Pyrxd.Watch.ClaimDepth
import Pyrxd.Btc.RawTxWire
import Pyrxd.Btc.WalkersAgree
import Pyrxd.Glyph.Daa
import Pyrxd.Glyph.DaaSimulation
import Pyrxd.Glyph.RefWalkers
import Pyrxd.Btc.Htlc
import Pyrxd.Btc.HtlcSpend
import Pyrxd.Tx.RoundTrip
import Pyrxd.Tx.PreimageSpec
import Pyrxd.Swap.Partial
import Pyrxd.Swap.PartialSafety
import Pyrxd.Spv.ProofSound
import Pyrxd.Watch.Quorum
import Pyrxd.Watch.TowerRuns
import Pyrxd.Watch.FireOnce
import Pyrxd.Gravity.RadiantSpends
import Pyrxd.Gravity.HtlcSpend
import Pyrxd.Glyph.DmintRoundTrip
import Pyrxd.Network.Bitcoin
import Pyrxd.Glyph.ScriptExact
import Pyrxd.Glyph.Ft
import Pyrxd.Btc.Payment
import Pyrxd.Gravity.Trade
import Pyrxd.Gravity.PaymentProvable
import Pyrxd.Tx.Base58
import Pyrxd.Gravity.Transactions
import Pyrxd.Gravity.TransactionsAgree
import Pyrxd.Gravity.Covenant
import Pyrxd.Gravity.FinalizeAccepted
import Pyrxd.Tx.Address
import Pyrxd.Hd.Bip32
import Pyrxd.Hd.Derivation
import Pyrxd.Agent.Signer
import Pyrxd.Agent.SignerSafety
import Pyrxd.Wallet.Select
import Pyrxd.Agent.WatchOnly
import Pyrxd.Tx.Size
import Pyrxd.Swap.P2pkhSpend
import Pyrxd.Agent.HonestPath
import Pyrxd.Wallet.Send
import Pyrxd.Gravity.FundedRecord
import Pyrxd.Gravity.FundRecovery
import Pyrxd.Lib.Machine
import Pyrxd.Lib.Spend
import Pyrxd.Glyph.Soulbound
import Pyrxd.Glyph.SoulboundSpend
import Pyrxd.Glyph.SoulboundPaths
import Pyrxd.Glyph.Cbor
import Pyrxd.Glyph.Metadata
import Pyrxd.Glyph.Builder
import Pyrxd.Glyph.TokenCode
import Pyrxd.Glyph.MutableReveal
import Pyrxd.Glyph.CommitReveal
import Pyrxd.Glyph.TokenSpend
import Pyrxd.Glyph.Transfers
import Pyrxd.Lib.OrderedMap
import Pyrxd.Lib.GapScan
import Pyrxd.Hd.Addresses
import Pyrxd.Hd.Recovery
import Pyrxd.Glyph.Decode
import Pyrxd.Glyph.ReadBack
import Pyrxd.Glyph.CreatorSig
import Pyrxd.Lib.Rounding
import Pyrxd.Gravity.ClaimWindow
import Pyrxd.Watch.ProtectedValue
import Pyrxd.Gravity.CrossClock
import Pyrxd.Lib.LastRun
import Pyrxd.Watch.StallTracker
import Pyrxd.Spv.MerkleBranch
import Pyrxd.Swap.Balance
import Pyrxd.Tx.Fee
import Pyrxd.Tx.MerklePath
import Pyrxd.Tx.MerklePathRoundTrip
import Pyrxd.Glyph.CreatorVerifies
import Pyrxd.Glyph.DaaRecovery
import Pyrxd.Lib.Positional
import Pyrxd.Tx.Base58Bijection
import Pyrxd.Tx.Der
import Pyrxd.Gravity.PushEncoders
import Pyrxd.Gravity.CappedFeeSource
import Pyrxd.Watch.Alerts
import Pyrxd.Tx.ScriptAsm
import Pyrxd.Lib.Infix
import Pyrxd.Glyph.CborTokens
import Pyrxd.Glyph.DmintV1Deploy
import Pyrxd.Glyph.TransferFees
import Pyrxd.Glyph.SignedSize
import Pyrxd.Glyph.DmintMint
import Pyrxd.Lib.XorRegister
import Pyrxd.Btc.Bech32
import Pyrxd.Lib.Text
import Pyrxd.Lib.Traverse
import Pyrxd.Lib.BitString
import Pyrxd.Hd.Bip39
import Pyrxd.Hd.Path
import Pyrxd.Hd.AccountPath
import Pyrxd.Hd.PathRange
import Pyrxd.Glyph.ParallelMiner
import Pyrxd.Lib.Pushes
import Pyrxd.Glyph.RevealWalk
import Pyrxd.Lib.History
import Pyrxd.Lib.Json
import Pyrxd.Network.ElectrumX
import Pyrxd.Network.Correlation
import Pyrxd.Agent.Transport
import Pyrxd.Agent.Daemon
import Pyrxd.Agent.DaemonRuns
import Pyrxd.Watch.DeadMan
import Pyrxd.Lib.Base64
import Pyrxd.Lib.Casing
import Pyrxd.Glyph.EncryptedContent
import Pyrxd.Glyph.Timelock
import Pyrxd.Glyph.TimelockReveal
import Pyrxd.Glyph.Scanner
import Pyrxd.Tx.MerkleCombine
