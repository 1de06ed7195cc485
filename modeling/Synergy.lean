import Synergy.Http.Outcome
import Synergy.Http.Text
import Synergy.Http.StringStream
import Synergy.Http.InputStream
import Synergy.Http.Request
import Synergy.Http.RequestProps
import Synergy.Http.Headers
import Synergy.Http.Accepted
import Synergy.Http.Body
import Synergy.Http.Chunked
import Synergy.Http.HeaderFields
import Synergy.Http.HeaderMap
import Synergy.Http.RequestRoundTrip
import Synergy.Http.ReadSplits
import Synergy.Http.Reply
import Synergy.Http.FormData
import Synergy.Http.FormDataRoundTrip
import Synergy.Http.FormDataReads
import Synergy.Http.FormPost
import Synergy.Keyboard.Types
import Synergy.Keyboard.Screen
import Synergy.Keyboard.FindKeyCode
import Synergy.Keyboard.MapKey
import Synergy.Keyboard.Operations
import Synergy.Keyboard.ModifierMap
import Synergy.Keyboard.SoftFailure
import Synergy.Keyboard.LevelMask
import Synergy.Keyboard.KeySelection
import Synergy.Keyboard.Replay
import Synergy.Keyboard.TableInvariant
import Synergy.Keyboard.ToggleState
import Synergy.Keyboard.Bounds
import Synergy.Keyboard.KeycodeMap
import Synergy.Mouse.Wheel
