import FlintlockRunner.Poolmgr.Replay
import FlintlockRunner.Scheduler.OnClaims
import FlintlockRunner.Scheduler.Stranded
import FlintlockRunner.Scheduler.Done
import FlintlockRunner.Scheduler.HostHealth
import FlintlockRunner.Scheduler.Removed
import FlintlockRunner.Config.Subscribers
import FlintlockRunner.Poolmgr.ClaimPools
import FlintlockRunner.Poolmgr.Exhausted
import FlintlockRunner.Poolmgr.Health
import FlintlockRunner.Scheduler.Limit
import FlintlockRunner.Flintlock.Connections
import FlintlockRunner.Executor.Stage
import FlintlockRunner.Poolmgr.HubResubscribe
import FlintlockRunner.Scheduler.KeepAlive
import FlintlockRunner.Poolmgr.Fake.Followed
import FlintlockRunner.Poolmgr.Fake.Overshoot
import FlintlockRunner.Poolmgr.Fake.Requests
import FlintlockRunner.Poolmgr.Fake.Final
import FlintlockRunner.Clock.Backoff
import FlintlockRunner.Config.Limits
import FlintlockRunner.Config.HostTokens
import FlintlockRunner.Poolmgr.NodeSelector
import FlintlockRunner.Scheduler.DeclaredHosts
import FlintlockRunner.Executor.HostEnv
import FlintlockRunner.Transport.Exec
import FlintlockRunner.Transport.HostWatch
import FlintlockRunner.Transport.AgentHosts
import FlintlockRunner.Poolmgr.UidRuns
import FlintlockRunner.Clock.Fake
import FlintlockRunner.Config.Show
import FlintlockRunner.Poolmgr.ClaimCalls
import FlintlockRunner.Flintlock.FakeHost
import FlintlockRunner.Poolmgr.Fake.Events
