import Ttds.Canvas
import Ttds.Raster.Loop
import Ttds.Raster.Fill
import Ttds.Raster.Rect
import Ttds.Raster.Circle
import Ttds.Raster.Dump
import Ttds.Backend.Drm
import Ttds.Backend.Init
import Ttds.Ui.Store
import Ttds.Ui.Reach
import Ttds.Ui.Shutdown
import Ttds.Cmd.Parse
import Ttds.Cmd.Number
import Ttds.Cmd.Run
import Ttds.Cmd.Cancel
import Ttds.Cmd.Script
