import JzPretest.Semantics.EventLoop
import JzPretest.Semantics.Transition
import JzPretest.TestKeyboard.CatchAction
import JzPretest.TestKeyboard.Finger
import JzPretest.TestKeyboard.Widget
import JzPretest.TestKeyboard.Marks
import JzPretest.TestKeyboard.Gesture
import JzPretest.TestKeyboard.Listen
import JzPretest.TestKeyboard.Dialog
import JzPretest.TestTouchscreen.TestTouchButton
import JzPretest.Semantics.ByteIO
import JzPretest.Semantics.Prog
import JzPretest.TestSpeaker.Wav
import JzPretest.TestSpeaker.Sndkit
import JzPretest.TestSpeaker.Record
import JzPretest.TestSpeaker.Play
import JzPretest.TestSpeaker.Copy
import JzPretest.TestSpeaker.PlayCopy
import JzPretest.TestSpeaker.WavHeader
import JzPretest.TestSpeaker.Convert
import JzPretest.TestSpeaker.Replay
import JzPretest.TestBluetooth.Event
import JzPretest.TestBluetooth.Host
import JzPretest.TestBluetooth.Controller
import JzPretest.TestKeyboard.Identity
import JzPretest.Pretest.Report
import JzPretest.Semantics.Scanf
import JzPretest.TestWriteVcomVol.Vcom
import JzPretest.TestWriteVcomVol.Honest
import JzPretest.TestWriteVcomVol.Bounds
import JzPretest.TestSpeaker.HeaderLayout
import JzPretest.TestSpeaker.WavPack
import JzPretest.TestSpeaker.HeaderBounds
import JzPretest.TestSpeaker.PlaySafe
import JzPretest.Semantics.CString
import JzPretest.TestSpeaker.Options
import JzPretest.TestSpeaker.RecordLength
import JzPretest.TestBluetooth.ReadEvent
import JzPretest.TestVibrator.GetSelect
import JzPretest.TestVibrator.CurrentTest
import JzPretest.TestBluetooth.ReadWindow
import JzPretest.TestKeyboard.Rotation
import JzPretest.TestAudio.CheckArg
import JzPretest.TestTouchscreen.Cells
import JzPretest.TestAudio.Run
import JzPretest.Semantics.TextFile
import JzPretest.TestKeyboard.Devices
import JzPretest.Pretest.Eventnum
import JzPretest.Pretest.Checktouch
import JzPretest.Semantics.Chain
import JzPretest.TestKeyboard.NodeList
import JzPretest.TestVibrator.SelectLog
import JzPretest.TestTouchscreen.GetCoordinate
import JzPretest.TestGsensor.MotionLog
import JzPretest.Semantics.Raster
import JzPretest.TestFrizz.Frizz
import JzPretest.TestHeartrate.Pah8001
import JzPretest.TestLcd.TestLcd
import JzPretest.TestMic.TestMic
import JzPretest.TestLcd.Checkerboard
import JzPretest.TestLcd.ThreeColor
import JzPretest.TestWriteVcomVol.Scan
import JzPretest.TestWriteVcomVol.LineByLine
import JzPretest.Semantics.OnesComplement
import JzPretest.Semantics.Tlv
import JzPretest.TestWifi.Netmask
import JzPretest.TestWifi.DhcpMsg
import JzPretest.TestWifi.Decode
import JzPretest.TestWifi.Packet
import JzPretest.TestWifi.PacketDelivery
import JzPretest.TestWifi.DhcpClient
import JzPretest.TestWifi.DhcpSession
import JzPretest.TestWifi.DhcpServer
import JzPretest.TestWifi.DhcpRuns
import JzPretest.TestWifi.DhcpOutcome
import JzPretest.TestWifi.DhcpHandshake
import JzPretest.Semantics.Calling
import JzPretest.Semantics.Tokens
import JzPretest.TestWifi.RouteTable
import JzPretest.TestWifi.IfcUtils
import JzPretest.TestWifi.ControlSocket
import JzPretest.TestWifi.Netcfg
import JzPretest.TestWifi.DoDhcp
import JzPretest.TestWifi.Requests
import JzPretest.TestWifi.HostRoutes
import JzPretest.TestWifi.Commands
import JzPretest.TestWifi.Willing
import JzPretest.TestWifi.Orderly
