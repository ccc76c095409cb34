import CarRepairShop.Announcements
import CarRepairShop.AsIfAlone
import CarRepairShop.Budget
import CarRepairShop.CommandPath
import CarRepairShop.Commits
import CarRepairShop.Compensation
import CarRepairShop.CustomerRegistry
import CarRepairShop.DeadLetters
import CarRepairShop.Deadlocks
import CarRepairShop.DueReplies
import CarRepairShop.EditorSpecs
import CarRepairShop.EffectsInStep
import CarRepairShop.Entities
import CarRepairShop.Envelopes
import CarRepairShop.ExactlyOnce
import CarRepairShop.ForeignKeys
import CarRepairShop.GracefulExit
import CarRepairShop.History
import CarRepairShop.HistoryReads
import CarRepairShop.ItemAddition
import CarRepairShop.Lib.CheckDigit
import CarRepairShop.Lib.Clocked
import CarRepairShop.Lib.CommitPoint
import CarRepairShop.Lib.FifoConsumers
import CarRepairShop.Lib.FifoQueue
import CarRepairShop.Lib.FollowUp
import CarRepairShop.Lib.OpenCalls
import CarRepairShop.Lib.OrderBy
import CarRepairShop.Lib.ReadCommitted
import CarRepairShop.Lib.Relational
import CarRepairShop.Lib.Relay
import CarRepairShop.Lib.Schedules
import CarRepairShop.Lib.Sequential
import CarRepairShop.Lib.SideBySide
import CarRepairShop.Lib.Table
import CarRepairShop.Lib.UniqueColumn
import CarRepairShop.Lib.WaitsFor
import CarRepairShop.LineEdits
import CarRepairShop.MessageCommutation
import CarRepairShop.MessageDeeds
import CarRepairShop.Messages
import CarRepairShop.Opening
import CarRepairShop.OperationSpecs
import CarRepairShop.Operations
import CarRepairShop.OrderAccess
import CarRepairShop.OutboxPath
import CarRepairShop.OutboxRelay
import CarRepairShop.Poller
import CarRepairShop.Process
import CarRepairShop.Progress
import CarRepairShop.Prospects
import CarRepairShop.Queries
import CarRepairShop.Refusals
import CarRepairShop.RegistryFrames
import CarRepairShop.RegistryUpdates
import CarRepairShop.ReplyFlow
import CarRepairShop.ReplyOrder
import CarRepairShop.Repositories
import CarRepairShop.RepositorySpecs
import CarRepairShop.Routes
import CarRepairShop.SagaSpecs
import CarRepairShop.Schedules
import CarRepairShop.Schema
import CarRepairShop.Serial
import CarRepairShop.Staff
import CarRepairShop.StaffAccess
import CarRepairShop.Statements
import CarRepairShop.Steps
import CarRepairShop.Stock
import CarRepairShop.StockConcurrency
import CarRepairShop.StockSpecs
import CarRepairShop.TaxIds
import CarRepairShop.Timeline
import CarRepairShop.Timely
import CarRepairShop.TimelySpecs
import CarRepairShop.UseCases
import CarRepairShop.VehicleRegistry
import CarRepairShop.Writes
