import P2PNode.Dispatch.AtMostOnce
import P2PNode.Dispatch.Attribution
import P2PNode.Dispatch.Fidelity
import P2PNode.Dispatch.LoadRoundTrip
import P2PNode.Dispatch.Routing
import P2PNode.Dispatch.SessionRuns
import P2PNode.Dispatch.Submit
import P2PNode.Dispatch.UnknownLoad
import P2PNode.Dispatch.UnsetResult
import P2PNode.Dispatch.Verdict
import P2PNode.Lib.Interleave
import P2PNode.Net.Acceptance
import P2PNode.Node.Answered
import P2PNode.Node.Datagrams
import P2PNode.Node.Lan
import P2PNode.Node.MainRuns
import P2PNode.Lib.Lines
import P2PNode.Node.Repl
import P2PNode.Node.SelfExclusion
import P2PNode.Peers.Locking
import P2PNode.Peers.Reaper
import P2PNode.Web.Boundaries
import P2PNode.Web.FanoutRuns
import P2PNode.Web.OwnContent
import P2PNode.Web.PeerRecovery
import P2PNode.Worker.Counters
import P2PNode.Worker.Descriptors
import P2PNode.Worker.FalseSuccess
import P2PNode.Worker.Limit
import P2PNode.Worker.Reaping
import P2PNode.Worker.Release
import P2PNode.Worker.Reply
import P2PNode.Worker.TaskIsolation
