import CdPlayer.Lib.ByteStore
import CdPlayer.Lib.RingStore
import CdPlayer.Lib.Occurrence
import CdPlayer.Lib.Run
import CdPlayer.Lib.LittleEndian
import CdPlayer.Lib.Stack
import CdPlayer.Lib.RefCount
import CdPlayer.Lib.Index
import CdPlayer.Lib.Cost
import CdPlayer.Lib.Simulation
import CdPlayer.Lib.DoubleBuffer
import CdPlayer.Lib.Locks
import CdPlayer.Kmp
import CdPlayer.SingleBuffer
import CdPlayer.Driver
import CdPlayer.Interrupt
import CdPlayer.Fifo
import CdPlayer.Outside
import CdPlayer.ReadData
import CdPlayer.Seek
import CdPlayer.Actions
import CdPlayer.Buffering
import CdPlayer.Stamps
import CdPlayer.Msf
import CdPlayer.Descramble
import CdPlayer.Jumps
import CdPlayer.Runs
import CdPlayer.Search
import CdPlayer.Compaction
import CdPlayer.Passage
import CdPlayer.HasData
import CdPlayer.PostSeek
import CdPlayer.Stream
import CdPlayer.Sectors
import CdPlayer.Forward
import CdPlayer.Block
import CdPlayer.Budget
import CdPlayer.Restart
import CdPlayer.Passing
import CdPlayer.Disc
import CdPlayer.Shock
import CdPlayer.Eject
import CdPlayer.TryRead
import CdPlayer.Requests
import CdPlayer.Retries
import CdPlayer.Relock
import CdPlayer.Deck
import CdPlayer.Reads
import CdPlayer.Overrun
import CdPlayer.DiscChange
import CdPlayer.Margin
import CdPlayer.CopyMoves
import CdPlayer.Toc
import CdPlayer.EjectRace
import CdPlayer.Hidden
import CdPlayer.SizeFile
import CdPlayer.HiddenCard
import CdPlayer.Cdrom
import CdPlayer.Lifetime
import CdPlayer.Probes
import CdPlayer.Pointers
import CdPlayer.Trailing
import CdPlayer.Queue
import CdPlayer.BlockDevice
import CdPlayer.DmaBuffer
import CdPlayer.Wakeup
import CdPlayer.Kthread
import CdPlayer.Atomic
import CdPlayer.Ejected
import CdPlayer.Results
import CdPlayer.Uncorrected
import CdPlayer.Recovery
import CdPlayer.Ending
import CdPlayer.DiskCalls
