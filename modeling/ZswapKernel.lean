import ZswapKernel.Lib.Program
import ZswapKernel.SolverCore.DeriveLadder
import ZswapKernel.SolverCore.MergeOrderCorrect
import ZswapKernel.SolverCore.MakerSets
import ZswapKernel.Lib.BestByKey
import ZswapKernel.SolverCore.EnumerateCorrect
import ZswapKernel.SolverCore.Staircase
import ZswapKernel.Lib.ParentForest
import ZswapKernel.SolverCore.DiscoveryCorrect
import ZswapKernel.SolverCore.LadderExact
import ZswapKernel.SolverCore.LadderPublished
import ZswapKernel.SolverCore.LadderQuotes
import ZswapKernel.SolverCore.MergeBudget
import ZswapKernel.Solver.Book
import ZswapKernel.Solver.Stock
import ZswapKernel.Solver.ExactFiles
import ZswapKernel.SolverCore.Receipts
import ZswapKernel.Solver.RouteMakers
import ZswapKernel.Solver.RouteAdmits
import ZswapKernel.Solver.RouteClaims
import ZswapKernel.Lib.Timeline
import ZswapKernel.Node.KnownRoots
import ZswapKernel.Node.RootLiveness
import ZswapKernel.Validator.Derive
import ZswapKernel.Validator.Validate
import ZswapKernel.Node.Database
import ZswapKernel.Node.StateMachine
import ZswapKernel.Node.OfferLiveness
import ZswapKernel.Node.UnshieldedSet
import ZswapKernel.Node.RootRetention
import ZswapKernel.SolverCore.BookOrder
import ZswapKernel.Solver.LadderSource
import ZswapKernel.Solver.RelayClient
import ZswapKernel.Solver.RelayFreshness
import ZswapKernel.Solver.Journal
import ZswapKernel.Solver.SwapJob
import ZswapKernel.Solver.SwapRecovery
import ZswapKernel.Solver.SwapRelay
import ZswapKernel.Solver.SwapBuild
import ZswapKernel.Solver.SwapExecutor
import ZswapKernel.Solver.JournalRows
import ZswapKernel.Solver.SwapWrites
import ZswapKernel.Solver.SwapMemory
import ZswapKernel.Solver.SwapTurns
import ZswapKernel.Lib.Double
import ZswapKernel.Node.EventBus
import ZswapKernel.Node.PriceMap
import ZswapKernel.Node.Prices
import ZswapKernel.Batcher.PriceLookup
import ZswapKernel.Poster.PosterJournal
import ZswapKernel.Poster.PosterTick
import ZswapKernel.Poster.CoinOffers
import ZswapKernel.SolverCore.OfferUpdatesContract
import ZswapKernel.SolverCore.UpdatesClient
import ZswapKernel.Node.OfferUpdatesStream
import ZswapKernel.Node.OfferIdentity
import ZswapKernel.Node.OfferIntake
import ZswapKernel.Node.FillVerdict
import ZswapKernel.Node.OfferGate
import ZswapKernel.SolverCore.LadderCancelled
import ZswapKernel.SolverCore.SourceOrder
import ZswapKernel.Lib.RollingSum
import ZswapKernel.Solver.DustWindow
import ZswapKernel.Lib.SubsetMasks
import ZswapKernel.SolverCore.MergeOrderTotal
import ZswapKernel.SolverCore.ReceiptsExact
import ZswapKernel.Solver.InverseHalf
import ZswapKernel.SolverCore.LadderSettled
import ZswapKernel.SolverCore.LadderSurvey
import ZswapKernel.SolverCore.LadderFrames
import ZswapKernel.Lib.DirectedCycles
import ZswapKernel.SolverCore.DiscoveryExact
import ZswapKernel.SolverCore.LadderCapped
import ZswapKernel.SolverCore.PairScratch
import ZswapKernel.SolverCore.PairScratchExact
import ZswapKernel.Solver.StockRuns
import ZswapKernel.Batcher.CelestiaPublish
import ZswapKernel.OfferGuard.SponsorshipExact
import ZswapKernel.Node.Quote
import ZswapKernel.Lib.Buckets
import ZswapKernel.Solver.BookIndex
import ZswapKernel.Poster.JournalRuns
import ZswapKernel.Lib.Keyset
import ZswapKernel.Lib.LeftJoin
import ZswapKernel.Lib.Statement
import ZswapKernel.Node.ArchiveMove
import ZswapKernel.Node.ConsumptionEvidence
import ZswapKernel.Node.OffersPage
import ZswapKernel.Node.PricedFills
import ZswapKernel.Node.PruneIndependence
import ZswapKernel.Solver.BookSync
import ZswapKernel.Lib.NumberText
import ZswapKernel.Lib.PointText
import ZswapKernel.Lib.Traces
import ZswapKernel.Node.TokenPrices
import ZswapKernel.Poster.Scheduler
import ZswapKernel.PriceFeed.Coingecko
import ZswapKernel.PriceFeed.Cycle
import ZswapKernel.Solver.InventoryRefresh
import ZswapKernel.Solver.StartupSignals
import ZswapKernel.SolverCore.Amount
import ZswapKernel.Validator.RootExtract
import ZswapKernel.Database.RegistryAtomic
import ZswapKernel.Lib.Awaiting
import ZswapKernel.Node.ExactFilesRead
import ZswapKernel.Solver.SwapBuildEnds
import ZswapKernel.Solver.SwapEvents
import ZswapKernel.Solver.SwapRuns
