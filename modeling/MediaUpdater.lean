import MediaUpdater.Download.SingleFlight
import MediaUpdater.Download.SizePhase
import MediaUpdater.Download.Silence
import MediaUpdater.Content.Mirror
import MediaUpdater.Download.Mirror
import MediaUpdater.Download.Driven
import MediaUpdater.Library.Pattern
import MediaUpdater.QFtp.Listing
import MediaUpdater.QFtp.Columns
import MediaUpdater.Content.Convergence
import MediaUpdater.Library.Base64
import MediaUpdater.Library.Feedback
import MediaUpdater.Qt.Codec
import MediaUpdater.Account.SimpleCrypt
import MediaUpdater.Account.AccountManager
import MediaUpdater.Account.Offline
import MediaUpdater.Account.Fallback
import MediaUpdater.Account.Protection
import MediaUpdater.Content.Pending
import MediaUpdater.Download.PassStep
import MediaUpdater.Download.StageStep
import MediaUpdater.Download.Trust
import MediaUpdater.Content.Queue
import MediaUpdater.Content.ControlInstall
import MediaUpdater.Content.Resync
import MediaUpdater.Content.Install
import MediaUpdater.Download.Acceptance
import MediaUpdater.Download.Absent
import MediaUpdater.Download.Removal
import MediaUpdater.Download.Commit
import MediaUpdater.Library.Newest
import MediaUpdater.Library.Text
import MediaUpdater.Library.Uri
import MediaUpdater.Library.Json
import MediaUpdater.Logger.LoggerDelete
import MediaUpdater.Qt.Arg
import MediaUpdater.Eventer.Eventer
import MediaUpdater.Eventer.Request
import MediaUpdater.Eventer.Report
import MediaUpdater.Library.Lines
import MediaUpdater.QFtp.Replies
import MediaUpdater.QFtp.PassiveMode
import MediaUpdater.Download.Queueing
import MediaUpdater.QFtp.Session
import MediaUpdater.QFtp.Refinement
import MediaUpdater.Library.Interleave
import MediaUpdater.QFtp.Dialogue
import MediaUpdater.QFtp.SizeDialogue
