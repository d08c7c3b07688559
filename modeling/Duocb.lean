import Duocb.KeyAuth.Pool
import Duocb.Verdict
import Duocb.Framing.Rejection
import Duocb.Lan
import Duocb.Lan.Ios
import Duocb.Pin.Entry
import Duocb.Card.PairingCode
import Duocb.Card.Window
import Duocb.Card.Minting
import Duocb.Subnet
import Duocb.Net.Resume
import Duocb.Net.Publisher.Window
import Duocb.Net.Publisher.Hosting
import Duocb.Net.Publisher.Adverts
import Duocb.Net.Rendezvous.Pin
import Duocb.Net.Session.Refresh
import Duocb.Net.Session.Budget
import Duocb.Net.Session.Chosen
import Duocb.Net.Runtime.Clipboard
import Duocb.Net.Runtime.Fresh
import Duocb.CardExchange
import Duocb.Transport
import Duocb.Ffi.Events
import Duocb.Ffi.Cstr
import Duocb.Ffi.Handle
import Duocb.Config.Interrupted
import Duocb.Config.Atomic
import Duocb.Config.Recovery
import Duocb.App.Trust
import Duocb.App.Fleet
import Duocb.App.Drain
import Duocb.App.Rows
import Duocb.System.Pending
