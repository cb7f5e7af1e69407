import OsmoSmlc.Properties.NoCrash
import OsmoSmlc.Properties.OneConnPerSubscr
import OsmoSmlc.Properties.Disconnect
import OsmoSmlc.Properties.OneAnswer
import OsmoSmlc.Properties.ObjectGraph
import OsmoSmlc.Properties.CellMap
import OsmoSmlc.Properties.CellStoreForm
import OsmoSmlc.Properties.CellConfig
import OsmoSmlc.Properties.Accounted
import OsmoSmlc.Properties.CompletedReset
import OsmoSmlc.Properties.Independence
import OsmoSmlc.Properties.PeerReset
import OsmoSmlc.Properties.AnswerContent
import OsmoSmlc.Properties.TwoPaths
import OsmoSmlc.Properties.SendResult
import OsmoSmlc.Properties.BufferRelease
import OsmoSmlc.Properties.TeardownOnce
import OsmoSmlc.Properties.SubscrStore
import OsmoSmlc.Properties.Rejected
import OsmoSmlc.Properties.NextConnId
import OsmoSmlc.Properties.Order
import OsmoSmlc.Properties.Refinement
import OsmoSmlc.Properties.Noninterference
import OsmoSmlc.Properties.PeerIdentity
import OsmoSmlc.Properties.Lifetime
import OsmoSmlc.Properties.Counters
import OsmoSmlc.Properties.Conservation
import OsmoSmlc.Properties.SccpRules
import OsmoSmlc.Properties.Replies
import OsmoSmlc.Properties.Recovery
import OsmoSmlc.Properties.Bindings
import OsmoSmlc.Properties.PeerLink
import OsmoSmlc.Properties.Operations
import OsmoSmlc.Properties.Redelivery
