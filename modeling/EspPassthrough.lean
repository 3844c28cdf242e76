import EspPassthrough.Accounting
import EspPassthrough.ShortSends
import EspPassthrough.Downlink
import EspPassthrough.UplinkLedger
import EspPassthrough.Reception
import EspPassthrough.BssidLock
import EspPassthrough.ScanBuffer
import EspPassthrough.Peripherals
import EspPassthrough.RetryLaw
import EspPassthrough.StaMode
import EspPassthrough.OfflineCache
import EspPassthrough.WindDown
import EspPassthrough.Restart
import EspPassthrough.SoftApProv
import EspPassthrough.Commissioning
