import Toaru.Memory
import Toaru.Ata.Device
import Toaru.Ata.Adapter
import Toaru.Ata.Atapi
import Toaru.Ata.Transfer
import Toaru.Ata.Plan
import Toaru.Ata.Registers
import Toaru.Ata.Dma
import Toaru.Ata.Legacy
import Toaru.Ata.Concurrent
import Toaru.Ata.Detect
import Toaru.Ata.Wire
import Toaru.Ata.Poll
import Toaru.Pipe.Model
import Toaru.Pipe.Select
import Toaru.Graphics.Blend
import Toaru.Graphics.Sprite
import Toaru.Graphics.Line
import Toaru.Graphics.LineThick
import Toaru.Graphics.LoadSprite
import Toaru.Graphics.Blur
import Toaru.Graphics.Clip
import Toaru.Graphics.DrawSprite
import Toaru.Libc.Execvp
