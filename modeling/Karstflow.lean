import Karstflow.Alpenglow.AggregateWire
import Karstflow.Alpenglow.Chain
import Karstflow.Alpenglow.ParentReadiness
import Karstflow.Alpenglow.Quorums
import Karstflow.Alpenglow.Slashing
import Karstflow.Alpenglow.WaitingChildren
import Karstflow.Net.PacketNumber
import Karstflow.Runtime.AccountsHash
import Karstflow.Runtime.BlockCost
import Karstflow.Runtime.CacheMirror
import Karstflow.Runtime.EpochSlots
import Karstflow.Runtime.Prediction
import Karstflow.Runtime.Replay
import Karstflow.Runtime.Rollback
import Karstflow.Runtime.SlotSupply
import Karstflow.Sbpf.AccountContainment
import Karstflow.Sbpf.CpiPrivileges
import Karstflow.Sbpf.LockoutUpdate
import Karstflow.Sbpf.Metering
import Karstflow.Sbpf.ProgramCache
import Karstflow.Sbpf.SystemAuthorization
import Karstflow.Sbpf.VoteAuthorization
import Karstflow.Sbpf.VoteReadBack
import Karstflow.Stages.PohSlot
import Karstflow.Stages.Shredder
import Karstflow.Storage.BatchAtomicity
import Karstflow.Storage.Compaction
import Karstflow.Storage.ForkRefinement
import Karstflow.Storage.SlotLinks
import Karstflow.Storage.TornWrites
import Karstflow.Storage.WalCodec
import Karstflow.Voting.GossipOrder
import Karstflow.Voting.TowerSafety
import Karstflow.Voting.TowerSync
import Karstflow.Voting.TowerVerify
