import Os88.Library.Execution
import Os88.Library.Patch
import Os88.Library.Storage
import Os88.TextConsole.Model
import Os88.TextConsole.Effect
import Os88.TextConsole.Operations
import Os88.Library.Page
import Os88.TextConsole.PageRefinement
import Os88.TextConsole.Display
import Os88.Disk.Driver
import Os88.Disk.Confinement
import Os88.Disk.Drive
import Os88.Disk.RoundTrip
import Os88.Disk.SectorCount
import Os88.Disk.RequestHistory
import Os88.Interrupt.Model
import Os88.Interrupt.Routing
import Os88.Interrupt.Preemption
import Os88.Library.ByteMemory
import Os88.Idt.Model
import Os88.Idt.InstallHistory
import Os88.Idt.LoadedTable
import Os88.Idt.GapGates
import Os88.Library.DwordStack
import Os88.Idt.Delivery
import Os88.Library.CString
import Os88.StringLib.Functions
import Os88.KernelTerminal.Model
import Os88.KernelTerminal.WorkingDirectory
import Os88.Shell.Model
import Os88.Shell.LineEditor
import Os88.MiniOs.Screen
import Os88.MiniOs.Keyboard
import Os88.MiniOs.KeyboardEffect
import Os88.MiniOs.LineHistory
import Os88.MiniOs.ComparedLine
import Os88.MiniOs.LineBounds
import Os88.KernelTerminal.Login
import Os88.KernelTerminal.LoginSession
import Os88.KernelTerminal.LineInput
import Os88.Boot.MemoryMap
import Os88.Boot.HeapRange
import Os88.Loader.E820
import Os88.Loader.E820Handover
import Os88.Boot.KernelMain
import Os88.Boot.Scheduler
import Os88.Library.LargePages
import Os88.Boot.HigherHalf
import Os88.Boot.BootDisk
import Os88.Library.PageWalk
import Os88.Loader.Paging
import Os88.Loader.IdentityMap
import Os88.MiniOs.Pixels
import Os88.MiniOs.Rectangles
import Os88.Library.DigitalLine
import Os88.MiniOs.Lines
import Os88.MiniOs.Circles
import Os88.MiniOs.SquareRoot
import Os88.MiniOs.KeyDrawings
import Os88.MiniOs.TextArea
import Os88.TextConsole.Isolation
import Os88.TextConsole.StringBox
import Os88.TextConsole.Pieces
import Os88.TextConsole.LineEnds
import Os88.TextConsole.Background
import Os88.TextConsole.FillScroll
import Os88.TextConsole.OkFail
import Os88.TextConsole.RightAligned
import Os88.TextConsole.DriverCalls
import Os88.KernelTerminal.LineEditing
import Os88.KernelTerminal.FileBuffer
import Os88.Loader.VideoModes
import Os88.Loader.ModeSearch
import Os88.Loader.EntryCount
import Os88.Loader.BootBlock
import Os88.Library.Pieces
import Os88.StringLib.Comparison
import Os88.StringLib.Cutting
import Os88.StringLib.Backwards
import Os88.KernelTerminal.PathBuffers
import Os88.KernelTerminal.CursorUpdater
import Os88.Library.Occurrences
import Os88.Library.Templates
import Os88.Installer.Placeholders
import Os88.Installer.AnswerFile
import Os88.Installer.Environment
import Os88.Library.Decimal
import Os88.Library.Numeral
import Os88.Library.SignedInt
import Os88.Installer.PartitionChoice
import Os88.Installer.Install
import Os88.Installer.InstallRuns
import Os88.Interrupt.TickDisplay
import Os88.Interrupt.TimerRate
import Os88.Loader.SectorAddress
import Os88.Library.SegmentedMemory
import Os88.Loader.A20Line
import Os88.Loader.ModeChoice
import Os88.Library.Waiting
import Os88.Loader.BootSector
import Os88.Loader.PortDiscipline
import Os88.Loader.SecondStage
import Os88.Loader.KeyboardController
import Os88.Loader.KernelHandover
import Os88.Shell.Tokenizer
import Os88.Shell.Session
import Os88.Shell.ArgumentVector
import Os88.Shell.InputHandler
import Os88.Shell.Echo
import Os88.MiniOs.Monitor
import Os88.MiniOs.MonitorSession
import Os88.MiniOs.ShownText
