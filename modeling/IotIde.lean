import IotIde.Foundation.Echo
import IotIde.BuilderCalls
import IotIde.Library
import IotIde.Projects
import IotIde.Requested
import IotIde.DeviceConfig
import IotIde.Deploy.Accounting
import IotIde.Deploy.EnsureDirectory
import IotIde.Deploy.Scripts
import IotIde.Gateway.Disabled
import IotIde.Gateway.Frame
import IotIde.Gateway.Online
import IotIde.Gateway.Sign
import IotIde.Gateway.TopoSync
import IotIde.GatewayLib.Forward
import IotIde.Host.Agreement
import IotIde.Host.App
import IotIde.Host.Lifecycle
import IotIde.Host.Replies
import IotIde.Host.Responses
import IotIde.Host.RequestIds
import IotIde.Host.Routing
import IotIde.Host.Runtime
import IotIde.Ide.Admission
import IotIde.Ide.CloudView
import IotIde.Ide.Exclusivity
import IotIde.Ide.IdeInfo
import IotIde.Ide.Identity
import IotIde.Json.Getters
import IotIde.Json.Literals
import IotIde.Json.Nested
import IotIde.Json.OwnMembers
import IotIde.Shadow.Versions
import IotIde.Shell.Capture
import IotIde.Shell.RemoveTree
import IotIde.Shell.WriteEnd
import IotIde.Foundation.Frames
import IotIde.Foundation.Outbox
import IotIde.Foundation.TopicFilter
import IotIde.Mqtt.Connect
import IotIde.Mqtt.Delivery
import IotIde.Mqtt.Link
import IotIde.Mqtt.Settling
import IotIde.Mqtt.HalfOpen
import IotIde.Mqtt.Notices
import IotIde.Mqtt.Reconnecting
import IotIde.Mqtt.Subscriptions
import IotIde.Core.Sha256
import IotIde.Core.Auth
