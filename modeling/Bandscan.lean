import Bandscan.Along
import Bandscan.ChannelList
import Bandscan.Collection
import Bandscan.CommandLine
import Bandscan.Config
import Bandscan.Config.File
import Bandscan.Delivery.Coding
import Bandscan.Delivery.Parameters
import Bandscan.Delivery.Token
import Bandscan.Descriptor
import Bandscan.Descriptor.Delivery
import Bandscan.Descriptor.Service
import Bandscan.Device.Error
import Bandscan.Device.Interface
import Bandscan.Device.Memory
import Bandscan.Filter.Scheduler
import Bandscan.Filter.Spec
import Bandscan.InitialList
import Bandscan.Kernel.Call
import Bandscan.Kernel.FilterNode
import Bandscan.Kernel.FrontendNode
import Bandscan.Kernel.Simulated
import Bandscan.Main
import Bandscan.Network.Basic
import Bandscan.Network.Reading
import Bandscan.Network.Service
import Bandscan.Network.Transponder
import Bandscan.Note
import Bandscan.NumberMap
import Bandscan.Program
import Bandscan.Section
import Bandscan.Session
import Bandscan.Table.Error
import Bandscan.Table.Nit
import Bandscan.Table.Pat
import Bandscan.Table.Pmt
import Bandscan.Table.Sdt
import Bandscan.Text.Blank
import Bandscan.Text.Broadcast
import Bandscan.Text.Hex
import Bandscan.Text.Numeral
import Bandscan.Toml.Lexeme
import Bandscan.Toml.Node
import Bandscan.Toml.Read
import Bandscan.Tuning
import Bandscan.Word
import Bandscan.World
import Bandscan.Proofs.CollectionHistory
import Bandscan.Proofs.MemoryBench
import Bandscan.Proofs.SchedulerFrame
import Bandscan.Proofs.SchedulerSteps
import Bandscan.Proofs.FilterPool
import Bandscan.Proofs.FilterSlots
import Bandscan.Proofs.SectionEffects
import Bandscan.Proofs.SegmentedHistory
import Bandscan.Proofs.NetworkTable
import Bandscan.Proofs.CodedNumbers
import Bandscan.Proofs.ReachableNetwork
import Bandscan.Proofs.NetworkRegistry
import Bandscan.Proofs.TableOrder
import Bandscan.Proofs.PollProgress
import Bandscan.Proofs.HealthyDemux
import Bandscan.Proofs.HealthyProgress
import Bandscan.Proofs.AcceptingBench
import Bandscan.Proofs.QueuedSections
import Bandscan.Proofs.Claimants
import Bandscan.Proofs.SessionSteps
import Bandscan.Proofs.HealthyScan
import Bandscan.Proofs.MapDelivery
import Bandscan.Proofs.OwnMaps
import Bandscan.Proofs.FirstMaps
import Bandscan.Proofs.CleanDemux
import Bandscan.Proofs.BenchTuning
import Bandscan.Proofs.NetworkScan
import Bandscan.Proofs.Redelivery
import Bandscan.Proofs.FilterNumbers
import Bandscan.Proofs.ScanHistory
import Bandscan.Proofs.ScanOrder
import Bandscan.Proofs.ScanSeparation
import Bandscan.Proofs.ChannelOrder
import Bandscan.Proofs.FrequencySeparation
import Bandscan.Proofs.DescriptorLoop
import Bandscan.Proofs.SectionForm
import Bandscan.Proofs.MultiplexClasses
import Bandscan.Proofs.TextDecoding
import Bandscan.Proofs.ListedFields
import Bandscan.Proofs.EntryLoop
import Bandscan.Proofs.TableEncoding
import Bandscan.Proofs.LeftOver
import Bandscan.Proofs.StreamList
import Bandscan.Proofs.FilterRoll
import Bandscan.Proofs.FilterAccount
import Bandscan.Proofs.PollPass
import Bandscan.Proofs.MapRequests
import Bandscan.Proofs.StreamAssignment
import Bandscan.Proofs.PinnedNetwork
import Bandscan.Proofs.DeliveryForm
import Bandscan.Proofs.ScriptedLock
import Bandscan.Proofs.AlternateTuning
import Bandscan.Proofs.PidsLines
import Bandscan.Proofs.SectionFrame
import Bandscan.Proofs.StreamLifetime
import Bandscan.Proofs.WrittenWords
import Bandscan.Proofs.TuningList
import Bandscan.Proofs.RecordedPass
import Bandscan.Proofs.ScanPoints
import Bandscan.Proofs.ScanAgreement
import Bandscan.Proofs.AbortedScan
import Bandscan.Proofs.Fallible
import Bandscan.Proofs.Oscillators
import Bandscan.Proofs.ArgumentReading
import Bandscan.Proofs.SettingsPrecedence
import Bandscan.Proofs.SatelliteTuning
