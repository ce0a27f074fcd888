import FlowService.Main
import FlowService.Queue.Callers
import FlowService.Queue.Rehearsal
import FlowService.Watch.OnDisk
import FlowService.Proofs.Queue.Order
import FlowService.Proofs.Queue.Callers
import FlowService.Proofs.Queue.Turns
import FlowService.Proofs.Queue.Polls
import FlowService.Proofs.Queue.Entries
import FlowService.Proofs.Queue.Sharing
import FlowService.Proofs.Queue.Freshness
import FlowService.Project.History
import FlowService.Proofs.Disk.Walk
import FlowService.Proofs.Project.Chain
import FlowService.Proofs.Watch.Mailboxes
import FlowService.Proofs.Project.Tended
import FlowService.Proofs.Project.Covered
import FlowService.Proofs.Project.Watched
import FlowService.Proofs.Queue.Outcomes
import FlowService.Proofs.Queue.Dropping
import FlowService.Proofs.Queue.Requests
import FlowService.Proofs.Queue.Busy
import FlowService.Proofs.Project.Installed
import FlowService.Proofs.Project.Lookups
import FlowService.Proofs.Project.Plain
import FlowService.Proofs.Project.Transparency
import FlowService.Client.Traffic
import FlowService.Proofs.Client.Exclusion
import FlowService.Proofs.Client.Roots
import FlowService.Proofs.Client.Checkers
import FlowService.Proofs.Client.Settling
import FlowService.Proofs.Client.Leaders
import FlowService.Proofs.Process.Pumps
import FlowService.Proofs.Queue.Independence
import FlowService.Proofs.Client.Joiners
import FlowService.Proofs.Client.Traceless
import FlowService.Proofs.Reply.RoundTrip
import FlowService.Proofs.Watch.Lifetime
import FlowService.Proofs.Project.Filling
import FlowService.Proofs.Json.Lexing
import FlowService.Proofs.Json.Printing
import FlowService.Proofs.Client.Alone
import FlowService.Proofs.Cli.Answers
import FlowService.Proofs.Cli.Failing
import FlowService.Proofs.Feature.Reports
import FlowService.Proofs.Project.Forgetting
import FlowService.Proofs.Project.Within
import FlowService.Proofs.Process.Cancellation
import FlowService.Proofs.Feature.Arguments
import FlowService.Proofs.Text.Identifiers
import FlowService.Proofs.Checker.CommandLine
import FlowService.Proofs.Config.Rounds
import FlowService.Proofs.Reply.Leniency
import FlowService.Proofs.Project.Nearest
import FlowService.Proofs.Feature.Percentages
import FlowService.Proofs.Project.Upkeep
import FlowService.Proofs.Project.Nesting
import FlowService.Proofs.Feature.Preceding
