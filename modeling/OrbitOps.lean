import OrbitOps.AlarmGrammar
import OrbitOps.AlarmPolicyParser
import OrbitOps.AlarmRecording
import OrbitOps.ErrorDetection
import OrbitOps.EventRecords
import OrbitOps.Fingerprints
import OrbitOps.Link.Accounting
import OrbitOps.Link.Forwarding
import OrbitOps.Link.Lifecycle
import OrbitOps.Link.Overtaking
import OrbitOps.Link.Reordering
import OrbitOps.Link.Samples
import OrbitOps.Link.Waiting
import OrbitOps.ReadBack
import OrbitOps.ReplayDelays
import OrbitOps.Scenario
import OrbitOps.Session.Arrangement
import OrbitOps.Session.AtomicWrite
import OrbitOps.Session.Cli
import OrbitOps.Session.LinkEvidence
import OrbitOps.Session.Selection
import OrbitOps.Session.SequenceCounts
import OrbitOps.ThresholdEquality
import OrbitOps.Session.ReportText
