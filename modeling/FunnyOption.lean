import FunnyOption.Account.StoredBook
import FunnyOption.Api.ActiveKeys
import FunnyOption.Api.Bearer
import FunnyOption.Chain.Fleet
import FunnyOption.Chain.Liveness
import FunnyOption.Contracts.Escape
import FunnyOption.Contracts.Forced
import FunnyOption.Contracts.Freeze
import FunnyOption.Contracts.PayoutRules
import FunnyOption.Custody.Deposit
import FunnyOption.Kafka.Consumer
import FunnyOption.Ledger.Mirror
import FunnyOption.Ledger.Service
import FunnyOption.Matching.Depth
import FunnyOption.Matching.FillOrKill
import FunnyOption.Matching.RingFifo
import FunnyOption.Oracle.Agreement
import FunnyOption.Oracle.Decimals
import FunnyOption.Oracle.TerminalErrors
import FunnyOption.Orders.Coverage
import FunnyOption.PostTrade.Conservation
import FunnyOption.PostTrade.Persistence
import FunnyOption.Rollup.ConservationRecord
import FunnyOption.Rollup.Incremental
import FunnyOption.Rollup.Positions
import FunnyOption.Rollup.Rematerialize
import FunnyOption.Rollup.Replayable
import FunnyOption.Rollup.Solvency
