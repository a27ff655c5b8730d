import Kworker.Lib.Machine
import Kworker.Lib.Script
import Kworker.Lib.Env
import Kworker.Lib.Utf8
import Kworker.Lib.Siblings
import Kworker.Lib.Chunks
import Kworker.Lib.Matcher
import Kworker.Lib.Js
import Kworker.Lib.Decimal
import Kworker.Lib.Loop
import Kworker.Lib.Layout
import Kworker.Lib.Lines
import Kworker.Lib.Json
import Kworker.Posix.Io
import Kworker.Posix.Cred
import Kworker.Posix.Fd
import Kworker.Daemon.Relay
import Kworker.Daemon.Connection
import Kworker.Daemon.Session
import Kworker.Daemon.Lemmas.Relay
import Kworker.Daemon.Lemmas.Session
import Kworker.Daemon.Lemmas.Login
import Kworker.Daemon.Theorems
import Kworker.Khsl.Relay
import Kworker.Khsl.Main
import Kworker.Khsl.Args
import Kworker.Khsl.Lemmas.Relay
import Kworker.Khsl.Lemmas.Main
import Kworker.Khsl.Lemmas.Args
import Kworker.Khsl.Theorems
import Kworker.Terminal.Napi
import Kworker.Terminal.Link
import Kworker.Terminal.Reader
import Kworker.Terminal.Pty
import Kworker.Terminal.Tabs
import Kworker.Terminal.Promote
import Kworker.Terminal.Prefs
import Kworker.Terminal.Load
import Kworker.Terminal.Clipboard
import Kworker.Terminal.Chrome
import Kworker.Terminal.Settings
import Kworker.Terminal.MenuEditor
import Kworker.Terminal.Scroll
import Kworker.Terminal.Thumb
import Kworker.Terminal.Lemmas.Link
import Kworker.Terminal.Lemmas.Reader
import Kworker.Terminal.Lemmas.Pty
import Kworker.Terminal.Lemmas.Sessions
import Kworker.Terminal.Lemmas.Tabs
import Kworker.Terminal.Lemmas.Promote
import Kworker.Terminal.Lemmas.Ui
import Kworker.Terminal.Lemmas.Menu
import Kworker.Terminal.Lemmas.Prefs
import Kworker.Terminal.Lemmas.Idempotent
import Kworker.Terminal.Lemmas.Load
import Kworker.Terminal.Lemmas.Clipboard
import Kworker.Terminal.Lemmas.Chrome
import Kworker.Terminal.Lemmas.Settings
import Kworker.Terminal.Lemmas.MenuEditor
import Kworker.Terminal.Lemmas.Scroll
import Kworker.Terminal.Lemmas.Thumb
import Kworker.Terminal.Theorems
import Kworker.Bios.Hotkey
import Kworker.Bios.Keys
import Kworker.Bios.Schedule
import Kworker.Bios.Skip
import Kworker.Bios.Heard
import Kworker.Bios.Typing
import Kworker.Bios.Env
import Kworker.Bios.Setup
import Kworker.Bios.Draw
import Kworker.Bios.Framebuffer
import Kworker.Bios.Hardware
import Kworker.Bios.Boot
import Kworker.Bios.Lemmas.Hotkey
import Kworker.Bios.Lemmas.Flush
import Kworker.Bios.Lemmas.Keys
import Kworker.Bios.Lemmas.Typing
import Kworker.Bios.Lemmas.Countdown
import Kworker.Bios.Lemmas.Wait
import Kworker.Bios.Lemmas.Skip
import Kworker.Bios.Lemmas.Heard
import Kworker.Bios.Lemmas.Setup
import Kworker.Bios.Lemmas.Draw
import Kworker.Bios.Lemmas.Framebuffer
import Kworker.Bios.Lemmas.Hardware
import Kworker.Bios.Lemmas.Boot
import Kworker.Bios.Theorems
import Kworker.FileManager.Index
import Kworker.FileManager.Lemmas.Index
import Kworker.FileManager.Lemmas.History
import Kworker.FileManager.Lemmas.Highlight
import Kworker.FileManager.Lemmas.Listing
import Kworker.FileManager.Lemmas.Size
import Kworker.FileManager.Theorems
import Kworker.Lib.Channel
import Kworker.Khsl.Session
import Kworker.Khsl.Lemmas.Session
import Kworker.Bios.Pages
import Kworker.Bios.Lemmas.Pages
import Kworker.Daemon.Server
import Kworker.Daemon.Lemmas.Server
import Kworker.Terminal.Controls
import Kworker.Terminal.Resize
import Kworker.Lib.Escape
import Kworker.Terminal.Script
import Kworker.Terminal.Lemmas.Script
import Kworker.Daemon.Install
import Kworker.Daemon.Lemmas.Install
