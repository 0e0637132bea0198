import LibFaketime.Lib.Interleave
import LibFaketime.Lib.Turns
import LibFaketime.Lib.Names
import LibFaketime.Lib.Cursor
import LibFaketime.Lib.FirstFit
import LibFaketime.Lib.Threads
import LibFaketime.Files
import LibFaketime.Sleep
import LibFaketime.Init
import LibFaketime.System
import LibFaketime.World
import LibFaketime.Solo
import LibFaketime.Strings
import LibFaketime.StartTime
import LibFaketime.Setting
import LibFaketime.Query
import LibFaketime.Ticks
import LibFaketime.Replay
import LibFaketime.Agree
import LibFaketime.Clock
import LibFaketime.Deadline
import LibFaketime.Consistent
import LibFaketime.Normalized
import LibFaketime.RealTime
import LibFaketime.Random
import LibFaketime.Syscall
import LibFaketime.Frozen
import LibFaketime.ExcludedWaits
import LibFaketime.WaitMs
import LibFaketime.SyscallClock
import LibFaketime.Precedence
import LibFaketime.Settime
import LibFaketime.SetClock
import LibFaketime.WideOps
import LibFaketime.Semaphore
import LibFaketime.OtherClocks
import LibFaketime.OldValue
import LibFaketime.Wakeup
import LibFaketime.Grammar
import LibFaketime.Launch
import LibFaketime.SharedTime
import LibFaketime.Remainder
import LibFaketime.Timeouts
import LibFaketime.Validity
import LibFaketime.SleepAgree
import LibFaketime.ConfigSize
import LibFaketime.Dates
import LibFaketime.Marks
import LibFaketime.Refresh
import LibFaketime.Comments
import LibFaketime.Blank
import LibFaketime.LastModifier
import LibFaketime.Cache
import LibFaketime.Staleness
import LibFaketime.StatLock
import LibFaketime.Interrupted
import LibFaketime.WriteAll
import LibFaketime.SaveFile
import LibFaketime.Mapping
import LibFaketime.Limits
import LibFaketime.SpawnOnce
import LibFaketime.Independence
import LibFaketime.Window
import LibFaketime.ShmCreate
import LibFaketime.InPlace
import LibFaketime.StrArray
import LibFaketime.SharedNames
import LibFaketime.InitOnce
import LibFaketime.TimerfdClocks
import LibFaketime.Utime
import LibFaketime.FileTimes
import LibFaketime.RefreshCalls
import LibFaketime.FileShift
import LibFaketime.Onward
import LibFaketime.Recording
import LibFaketime.LockOrder
import LibFaketime.Flock
import LibFaketime.SharedInit
import LibFaketime.Ownership
import LibFaketime.Keepalive
import LibFaketime.Lib.Linked
import LibFaketime.UTHash
import LibFaketime.Conds
