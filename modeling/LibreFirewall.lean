import LibreFirewall.Arenas
import LibreFirewall.AssuredFlows
import LibreFirewall.CanonicalRecords
import LibreFirewall.ChannelAcknowledgements
import LibreFirewall.ChannelCodecs
import LibreFirewall.CommitConfirms
import LibreFirewall.ConfigLockouts
import LibreFirewall.DroppedFrames
import LibreFirewall.FlowLedgers
import LibreFirewall.FlowPasses
import LibreFirewall.FlowStates
import LibreFirewall.ForwardedFrames
import LibreFirewall.Handovers
import LibreFirewall.IdentityChecks
import LibreFirewall.Limiters
import LibreFirewall.PoolOwnership
import LibreFirewall.PortGenerations
import LibreFirewall.RangeAnswers
import LibreFirewall.RelatedErrors
import LibreFirewall.RelaySessions
import LibreFirewall.RestartedStores
import LibreFirewall.RingIngests
import LibreFirewall.RingTurns
import LibreFirewall.SegmentRoundTrips
import LibreFirewall.SinkWalks
import LibreFirewall.SweepBudgets
import LibreFirewall.Virtqueues
