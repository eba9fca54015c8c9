import EtcdRestore.Types
import EtcdRestore.Events
import EtcdRestore.Integrity
import EtcdRestore.FirstDelta
import EtcdRestore.LeanKeep
import EtcdRestore.Applier
import EtcdRestore.Pipeline
import EtcdRestore.PipelineSafety
import EtcdRestore.Reassembly
import EtcdRestore.PipelineRuns
import EtcdRestore.Purge
import EtcdRestore.DeepCopy
import EtcdRestore.PipelineMoves
import EtcdRestore.TempFiles
import EtcdRestore.AlarmRefinement
import EtcdRestore.HealthyRuns
import EtcdRestore.Progress
import EtcdRestore.Termination
import EtcdRestore.Config
import EtcdRestore.Liveness
import EtcdRestore.Delivery
import EtcdRestore.Success
