import Bedrock.BatchConsole
import Bedrock.Boot.Params
import Bedrock.ChildCount
import Bedrock.Ept.Refinement
import Bedrock.Ept.Shared
import Bedrock.EventConfig
import Bedrock.FileFetch
import Bedrock.ForkTree
import Bedrock.HostRestore
import Bedrock.IdleWake
import Bedrock.InService
import Bedrock.Lab.Bash
import Bedrock.Lab.Complete
import Bedrock.Lab.Rewind
import Bedrock.Landing
import Bedrock.Outcome
import Bedrock.PebsPage
import Bedrock.RandomSeed
import Bedrock.Replay
import Bedrock.RoundTrip
import Bedrock.Rtc
import Bedrock.RunMemory
import Bedrock.Scx.Victims
import Bedrock.SingleStep
import Bedrock.StackPointer
import Bedrock.Vpid.Table
import Bedrock.Xcr0
