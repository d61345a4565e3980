import Idryx.Ingest.Mcp
import Idryx.Stream.Declare
import Idryx.Tokenfuse.ForeignLines
import Idryx.Tokenfuse.Conservation
import Idryx.Tokenfuse.Delegation
import Idryx.Tokenfuse.Merge
import Idryx.Graph.Sliced
import Idryx.Aws.Shared
import Idryx.Aws.Trail
import Idryx.AiUsage.Agreement
import Idryx.AiUsage.Render
import Idryx.AiUsage.CodeScan
import Idryx.AiUsage.Order
import Idryx.Server.Escape
import Idryx.Enforce.PullRequest
import Idryx.Remediation.Template
import Idryx.Detect.MoreEvents
import Idryx.Detect.Raised
import Idryx.Ebpf.Surfaced
import Idryx.Server.Live
import Idryx.Bom.Cyclonedx
import Idryx.Cmd.Sources
import Idryx.Ingest.Azure
import Idryx.Cmd.Detect
