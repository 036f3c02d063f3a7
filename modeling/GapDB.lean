import GapDB.Client.Watch
import GapDB.Engine.Aging
import GapDB.Server.Restore
import GapDB.Persist.Truncation
import GapDB.Persist.Authority
import GapDB.Engine.Cursors
import GapDB.Client.RecoveryAdmission
import GapDB.Server.Opened
import GapDB.Engine.ReadPaths
import GapDB.Admin.Apply
import GapDB.Client.Reuse
import GapDB.Server.Diagnostics
import GapDB.Engine.Bookkeeping
