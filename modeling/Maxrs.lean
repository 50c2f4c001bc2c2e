import Maxrs.Kit.Script
import Maxrs.Wakeup
import Maxrs.SequenceOrder
import Maxrs.AttachmentRegistry
import Maxrs.ReadLoop
import Maxrs.Generation
import Maxrs.Isolation
import Maxrs.Delivery
import Maxrs.ProtocolOrder
import Maxrs.Incoming
import Maxrs.OwnMessages
import Maxrs.Relogin
import Maxrs.MessageIds
import Maxrs.UploadProtocol
import Maxrs.LoginRuns
import Maxrs.SmsRequest
import Maxrs.CaptchaTimeout
import Maxrs.ReaderPipeline
import Maxrs.Deadlock
import Maxrs.FileName
import Maxrs.MessageJson
import Maxrs.RetrySchedule
import Maxrs.ArcRegistry
import Maxrs.Dispatcher
import Maxrs.TelegramReply
import Maxrs.Removal
import Maxrs.Pruning
import Maxrs.Closing
import Maxrs.Refusal
import Maxrs.Completion
import Maxrs.Restart
import Maxrs.Silence
import Maxrs.CallbackStop
import Maxrs.Speech
