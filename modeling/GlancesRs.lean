import GlancesRs.Alerts.Exactness
import GlancesRs.Alerts.FastPath
import GlancesRs.Alerts.History
import GlancesRs.Alerts.Lifetime
import GlancesRs.Alerts.Reference
import GlancesRs.Alerts.Timestamps
import GlancesRs.Alerts.UniqueKeys
import GlancesRs.Alerts.Usable
import GlancesRs.Api.All
import GlancesRs.Api.Limits
import GlancesRs.Config.Timing
import GlancesRs.Data.Layout
import GlancesRs.Engine.Freshness
import GlancesRs.Linux.Alignment
import GlancesRs.Linux.MountTable
import GlancesRs.Linux.Overflow
import GlancesRs.Linux.ReadBack
import GlancesRs.Linux.UnescapeLoop
import GlancesRs.Plugins.CpuShares
import GlancesRs.Plugins.DefaultHide
import GlancesRs.Plugins.RateIntervals
import GlancesRs.Plugins.StepRuns
import GlancesRs.Server.Progress
import GlancesRs.Server.Rest
import GlancesRs.Server.Startup
import GlancesRs.Server.TrustedHost
import GlancesRs.Server.Visible
