import ScriptWarden.Http.Routes
import ScriptWarden.Main
import ScriptWarden.Proofs.Confinement
import ScriptWarden.Proofs.FunctionBlocking
import ScriptWarden.Proofs.ImportBlocking
import ScriptWarden.Proofs.Runs.ValidatedFiles
import ScriptWarden.Proofs.Text.Chunks
import ScriptWarden.Rehearsal.Sessions
import ScriptWarden.Rehearsal.Viewers
import ScriptWarden.Proofs.Sessions.Channels
import ScriptWarden.Proofs.Sessions.Hubs
import ScriptWarden.Proofs.Sessions.Forwarding
import ScriptWarden.Proofs.Runs.Draining
import ScriptWarden.Proofs.Runs.Handling
import ScriptWarden.Proofs.Runs.ViewedSessions
import ScriptWarden.Proofs.RelativeConfinement
import ScriptWarden.Proofs.Runs.LaunchedFile
import ScriptWarden.Proofs.RememberedVerdicts
import ScriptWarden.Proofs.BareNames
import ScriptWarden.Proofs.Files.Drafts
import ScriptWarden.Proofs.Concurrent.Traffic
import ScriptWarden.Proofs.Concurrent.UploadsSeen
import ScriptWarden.Proofs.Files.DesignationFile
import ScriptWarden.Proofs.BootRegister
import ScriptWarden.Proofs.Files.LogFiles
import ScriptWarden.Proofs.Runs.Chronicles
import ScriptWarden.Proofs.Runs.EndedSessions
import ScriptWarden.Proofs.Runs.KeptOutput
import ScriptWarden.Proofs.Runs.ViewersAndLogs
import ScriptWarden.Proofs.StricterRules
import ScriptWarden.Proofs.Files.Listings
import ScriptWarden.Proofs.Runs.CleanStores
import ScriptWarden.Proofs.Runs.Inspections
import ScriptWarden.Proofs.Files.DesignationApart
import ScriptWarden.Proofs.Concurrent.Designating
import ScriptWarden.Proofs.Judgements
import ScriptWarden.Proofs.Concurrent.Registrars
import ScriptWarden.Proofs.Runs.Shutdowns
import ScriptWarden.Proofs.Files.RawNames
import ScriptWarden.Proofs.Sessions.Replays
import ScriptWarden.Proofs.Sessions.Gaps
import ScriptWarden.Proofs.StringLiterals
import ScriptWarden.Proofs.DestructiveCalls
import ScriptWarden.Proofs.OpenedFiles
import ScriptWarden.Proofs.StackWalk
import ScriptWarden.Proofs.SyntaxErrors
import ScriptWarden.Proofs.MissingModules
import ScriptWarden.Proofs.FailedDeletions
import ScriptWarden.Proofs.Runs.Stopping
import ScriptWarden.Proofs.Runs.Feeding
import ScriptWarden.Proofs.Clock.Dates
import ScriptWarden.Proofs.Wire.Messages
import ScriptWarden.Proofs.Runs.Terminations
import ScriptWarden.Proofs.Clock.Runtimes
import ScriptWarden.Proofs.SavedConfigurations
import ScriptWarden.Proofs.Runs.BootOutcomes
