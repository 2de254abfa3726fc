import Osal.Capability.Rights
import Osal.Capability.Space
import Osal.Clock.Client
import Osal.Clock.Protocol
import Osal.Clock.Schedule
import Osal.Clock.Service
import Osal.Config
import Osal.Config.Document
import Osal.Config.Integer
import Osal.Endpoint
import Osal.Error
import Osal.Guarded
import Osal.Host
import Osal.IndexList
import Osal.Ipc.Buffer
import Osal.Ipc.Client
import Osal.Ipc.Registry
import Osal.LiveSystem
import Osal.Machine
import Osal.Message
import Osal.Mutex
import Osal.Notification
import Osal.Pool
import Osal.Population
import Osal.ProcessEnv
import Osal.Program
import Osal.Proofs.CapSpace
import Osal.Proofs.CapSpace.FreshMap
import Osal.Proofs.Clock.Beat
import Osal.Proofs.Clock.Client
import Osal.Proofs.Clock.Codec
import Osal.Proofs.Clock.Consistency
import Osal.Proofs.Clock.Drift
import Osal.Proofs.Clock.Fire
import Osal.Proofs.Clock.History
import Osal.Proofs.Clock.LeftWake
import Osal.Proofs.Clock.Lockstep
import Osal.Proofs.Clock.Loops
import Osal.Proofs.Clock.Matching
import Osal.Proofs.Clock.Punctual
import Osal.Proofs.Clock.ReplyCodec
import Osal.Proofs.Clock.RequestCodec
import Osal.Proofs.Clock.Retirement
import Osal.Proofs.Clock.Running
import Osal.Proofs.Clock.Schedule
import Osal.Proofs.Clock.SecondFire
import Osal.Proofs.Clock.Sleep
import Osal.Proofs.Clock.Stranding
import Osal.Proofs.Clock.Transparency
import Osal.Proofs.Clock.UnboundedTime
import Osal.Proofs.Endpoint.Delivery
import Osal.Proofs.Endpoint.Slots
import Osal.Proofs.Histories
import Osal.Proofs.IndexList
import Osal.Proofs.IndexList.Sequences
import Osal.Proofs.Ipc.Clientele
import Osal.Proofs.Ipc.Exclusion
import Osal.Proofs.Ipc.Registry
import Osal.Proofs.Ipc.Users
import Osal.Proofs.Mutex.Exclusion
import Osal.Proofs.Mutex.Loans
import Osal.Proofs.Mutex.Places
import Osal.Proofs.PointerReuse
import Osal.Proofs.Pool
import Osal.Proofs.Pool.Lives
import Osal.Proofs.Pool.Queues
import Osal.Proofs.Pool.Sweep
import Osal.Proofs.Process.Household
import Osal.Proofs.Process.Names
import Osal.Proofs.Process.Slots
import Osal.Proofs.Process.Threads
import Osal.Proofs.Semaphore.AnyClock
import Osal.Proofs.Semaphore.Calls
import Osal.Proofs.Semaphore.Conservation
import Osal.Proofs.Semaphore.Ensemble
import Osal.Proofs.Semaphore.LostRaces
import Osal.Proofs.Semaphore.NoLeak
import Osal.Proofs.Semaphore.NoLostWakeup
import Osal.Proofs.Semaphore.Places
import Osal.Proofs.Semaphore.Room
import Osal.Proofs.Semaphore.Rounds
import Osal.Proofs.Semaphore.Sound
import Osal.Proofs.System.Accounts
import Osal.Proofs.System.Chronicle
import Osal.Proofs.System.Tables
import Osal.Proofs.Text.Truncate
import Osal.Proofs.Wakes
import Osal.Semaphore
import Osal.Semaphore.Episode
import Osal.System
import Osal.Text.Hidden
import Osal.Text.Quoted
import Osal.Text.Truncate
import Osal.Thread
import Osal.Tid
import Osal.TimeoutId
import Osal.Timer.Interval
import Osal.Timer.Manual
