import Bulletin.Main
import Bulletin.Markdown.Handed
import Bulletin.Workbench
import Bulletin.Proofs.Page.Cut
import Bulletin.Proofs.Page.Tidy
import Bulletin.Proofs.Mdast.Tree
import Bulletin.Proofs.Mdast.Kept
import Bulletin.Proofs.Page.Walk
import Bulletin.Proofs.Page.Queue
import Bulletin.Proofs.Page.Whole
import Bulletin.Proofs.Convert.Dump
import Bulletin.Proofs.Page.Deferred
import Bulletin.Proofs.Convert.Rejection
import Bulletin.Proofs.Convert.Rendering
import Bulletin.Proofs.Convert.Handover
import Bulletin.Proofs.Batch.Outputs
import Bulletin.Proofs.Batch.Failures
import Bulletin.Proofs.Batch.Workers
import Bulletin.Proofs.Batch.Repeat
import Bulletin.Proofs.Markdown.Agreement
import Bulletin.Proofs.Command.Configuration
import Bulletin.Proofs.Command.Single
import Bulletin.Proofs.Page.Mirror
import Bulletin.Proofs.Mdast.Pruning
import Bulletin.Proofs.Markdown.Arrangement
import Bulletin.Proofs.Markdown.Alternative
import Bulletin.Proofs.Markdown.References
import Bulletin.Proofs.Markdown.FrontMatter
import Bulletin.Proofs.Page.Layout
import Bulletin.Proofs.Page.Aligned
import Bulletin.Proofs.Page.Siblings
import Bulletin.Proofs.Page.Foreign
import Bulletin.Proofs.Page.Isolation
import Bulletin.Proofs.Page.Essence
import Bulletin.Proofs.Settings.Accepted
import Bulletin.Proofs.Settings.Precedence
import Bulletin.Proofs.ConfigFile.Discovery
