import WorldMap.CommandLine.Folder
import WorldMap.Main
import WorldMap.Image.Checksum
import WorldMap.Image.Encoding
import WorldMap.Image.Format
import WorldMap.Text.ControlSequence
import WorldMap.Proofs.Config.Written
import WorldMap.Proofs.Render.Closing
import WorldMap.Proofs.Render.Middle
import WorldMap.Proofs.Render.Requests
import WorldMap.Proofs.Schedule.Cancellation
import WorldMap.Proofs.Schedule.Progress
import WorldMap.Proofs.Terrain.Seams
import WorldMap.Proofs.Tiles.Composition
import WorldMap.Proofs.Tiles.Layering
import WorldMap.Proofs.Geometry.Extent
import WorldMap.Proofs.Geometry.Inclusion
import WorldMap.Proofs.Geometry.Pixels
import WorldMap.Proofs.Number.Completion
import WorldMap.Proofs.Terrain.Opacity
import WorldMap.Proofs.Schedule.Containment
