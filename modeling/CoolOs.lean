import CoolOs.DiskImage.Agreement
import CoolOs.Vfs.Sleepers
import CoolOs.Futex.Privacy
import CoolOs.Net.TcpStream
import CoolOs.Net.Transmit
import CoolOs.Web.Requests
import CoolOs.Web.CookieFlags
import CoolOs.BootHealth.Trials
import CoolOs.Accounts.Reload
import CoolOs.Storage.Confinement
import CoolOs.Files.Search
import CoolOs.Writeback.Durability
import CoolOs.Sched.Fairness
import CoolOs.Sched.Recycling
import CoolOs.CoolFs.Regions
import CoolOs.Memory.InitialStack
import CoolOs.Memory.Frames
import CoolOs.Shmem.Windows
import CoolOs.Tty.Terminals
import CoolOs.Files.Listing
import CoolOs.Fat.Volume
import CoolOs.Net.Frames
import CoolOs.Packages.Versions
