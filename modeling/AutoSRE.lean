import AutoSRE.Api.Lifespan
import AutoSRE.Api.Budget
import AutoSRE.Api.Approvals
import AutoSRE.Api.Dedup
import AutoSRE.Api.Signatures
import AutoSRE.Api.Limiter
import AutoSRE.Api.Authenticators
import AutoSRE.Api.Dashboard
import AutoSRE.Api.KeyInjection
import AutoSRE.Core.Namespaces
import AutoSRE.Core.Hypotheses
import AutoSRE.Core.Proposals
import AutoSRE.Core.Investigations
import AutoSRE.Core.Routing
import AutoSRE.Core.Verification
import AutoSRE.Core.RouterProtocol
import AutoSRE.Core.Accounting
import AutoSRE.Core.CodeAct
import AutoSRE.Core.Extraction
import AutoSRE.Core.Breaker
import AutoSRE.Core.Backoff
import AutoSRE.Core.Compaction
import AutoSRE.Tools.Observability
import AutoSRE.Safety.Authority
import AutoSRE.Safety.HardBlocks
import AutoSRE.Tools.Pods
import AutoSRE.Tools.Backends
import AutoSRE.Tools.Spans
import AutoSRE.Tools.Quantities
import AutoSRE.Rivulet.Loss
import AutoSRE.Rivulet.Checkout
import AutoSRE.Rivulet.Format
import AutoSRE.Rivulet.Drain
import AutoSRE.Rivulet.Reclaim
import AutoSRE.Rivulet.EndToEnd
import AutoSRE.Api.Agent
import AutoSRE.Rivulet.Purchases
import AutoSRE.Api.Lifecycle
import AutoSRE.Tools.Remediations
