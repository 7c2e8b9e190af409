import DepthRaster.Color.FaceColoring
import DepthRaster.Color.KeyStream
import DepthRaster.Color.Reading
import DepthRaster.Color.Rgb
import DepthRaster.CommandLine.Options
import DepthRaster.CommandLine.Override
import DepthRaster.CommandLine.Word
import DepthRaster.Files.Access
import DepthRaster.Files.Directory
import DepthRaster.Files.Path
import DepthRaster.Geometry.Area
import DepthRaster.Geometry.Point
import DepthRaster.Geometry.Projection
import DepthRaster.Geometry.Projector
import DepthRaster.Geometry.Rotation
import DepthRaster.Image.Basic
import DepthRaster.Image.Checksum
import DepthRaster.Image.File
import DepthRaster.Image.Png
import DepthRaster.Image.Tga
import DepthRaster.Main
import DepthRaster.Mesh.Basic
import DepthRaster.Mesh.File
import DepthRaster.Mesh.Submesh
import DepthRaster.Numeric.Binary
import DepthRaster.Numeric.Scalar
import DepthRaster.Numeric.Scientific
import DepthRaster.Numeric.Shortest
import DepthRaster.Numeric.Whole
import DepthRaster.Numeric.Written
import DepthRaster.Obj.Assembly
import DepthRaster.Obj.File
import DepthRaster.Obj.Lines
import DepthRaster.Obj.Materials
import DepthRaster.Obj.Statement
import DepthRaster.Program
import DepthRaster.Proofs.Color.Reading
import DepthRaster.Proofs.CommandLine.Layers
import DepthRaster.Proofs.Control.Always
import DepthRaster.Proofs.Control.Outcomes
import DepthRaster.Proofs.Files.Directory
import DepthRaster.Proofs.Files.Path
import DepthRaster.Proofs.Geometry.Interpolation
import DepthRaster.Proofs.Geometry.Perspective
import DepthRaster.Proofs.Geometry.Plane
import DepthRaster.Proofs.Geometry.Turn
import DepthRaster.Proofs.Geometry.Weights
import DepthRaster.Proofs.Image.File
import DepthRaster.Proofs.Image.Gathered
import DepthRaster.Proofs.Image.Items
import DepthRaster.Proofs.Image.Pixel
import DepthRaster.Proofs.Image.Png
import DepthRaster.Proofs.Image.Store
import DepthRaster.Proofs.Image.Tga
import DepthRaster.Proofs.Image.Upright
import DepthRaster.Proofs.Lists
import DepthRaster.Proofs.Mesh.Cuts
import DepthRaster.Proofs.Mesh.Merging
import DepthRaster.Proofs.Mesh.Texts
import DepthRaster.Proofs.Numeric.Comparison
import DepthRaster.Proofs.Numeric.Decimals
import DepthRaster.Proofs.Numeric.Digits
import DepthRaster.Proofs.Numeric.Error
import DepthRaster.Proofs.Numeric.Exact
import DepthRaster.Proofs.Numeric.NearWhole
import DepthRaster.Proofs.Numeric.Nearest
import DepthRaster.Proofs.Numeric.Numerals
import DepthRaster.Proofs.Numeric.Operations
import DepthRaster.Proofs.Numeric.Packing
import DepthRaster.Proofs.Numeric.Rounding
import DepthRaster.Proofs.Numeric.Shortest
import DepthRaster.Proofs.Numeric.Written
import DepthRaster.Proofs.Obj.Backward
import DepthRaster.Proofs.Obj.Parts
import DepthRaster.Proofs.Obj.Plain
import DepthRaster.Proofs.Obj.Readers
import DepthRaster.Proofs.Obj.Reading
import DepthRaster.Proofs.Obj.Refusals
import DepthRaster.Proofs.Program
import DepthRaster.Proofs.Raster.Adjacent
import DepthRaster.Proofs.Raster.Bytes
import DepthRaster.Proofs.Raster.Clipping
import DepthRaster.Proofs.Raster.Coverage
import DepthRaster.Proofs.Raster.Depth
import DepthRaster.Proofs.Raster.Digital
import DepthRaster.Proofs.Raster.Export
import DepthRaster.Proofs.Raster.Fill
import DepthRaster.Proofs.Raster.Fragments
import DepthRaster.Proofs.Raster.FrameBuffer
import DepthRaster.Proofs.Raster.Interior
import DepthRaster.Proofs.Raster.Occupancy
import DepthRaster.Proofs.Raster.Register
import DepthRaster.Proofs.Raster.Sample
import DepthRaster.Proofs.Raster.Scan
import DepthRaster.Proofs.Raster.Segment
import DepthRaster.Proofs.Raster.Symmetry
import DepthRaster.Proofs.Raster.Winding
import DepthRaster.Proofs.Render.Concatenation
import DepthRaster.Proofs.Render.Cropping
import DepthRaster.Proofs.Render.Levels
import DepthRaster.Proofs.Render.Nearest
import DepthRaster.Proofs.Render.Outlines
import DepthRaster.Proofs.Render.Pixel
import DepthRaster.Proofs.Render.Placement
import DepthRaster.Proofs.Render.Records
import DepthRaster.Proofs.Render.Reordering
import DepthRaster.Proofs.Render.Saving
import DepthRaster.Proofs.Render.Schedule
import DepthRaster.Proofs.Render.Statistics
import DepthRaster.Proofs.Settings.Document
import DepthRaster.Proofs.Settings.Fieldwise
import DepthRaster.Proofs.Settings.Keys
import DepthRaster.Proofs.Settings.Loading
import DepthRaster.Proofs.Settings.Reloading
import DepthRaster.Proofs.Settings.RoundTrip
import DepthRaster.Proofs.Settings.Sizes
import DepthRaster.Proofs.Settings.Valid
import DepthRaster.Proofs.Toml.Atoms
import DepthRaster.Proofs.Toml.Blocks
import DepthRaster.Proofs.Toml.Grammar
import DepthRaster.Proofs.Toml.Lines
import DepthRaster.Proofs.Toml.Numbers
import DepthRaster.Proofs.Toml.Refusals
import DepthRaster.Proofs.Toml.Strings
import DepthRaster.Proofs.Toml.Values
import DepthRaster.Raster.Box
import DepthRaster.Raster.Export
import DepthRaster.Raster.Fill
import DepthRaster.Raster.Fragment
import DepthRaster.Raster.FrameBuffer
import DepthRaster.Raster.Sample
import DepthRaster.Raster.Segment
import DepthRaster.Raster.Triangle
import DepthRaster.Render.Placement
import DepthRaster.Render.Renderer
import DepthRaster.Render.Rendering
import DepthRaster.Render.Save
import DepthRaster.Settings.Basic
import DepthRaster.Settings.Reader
import DepthRaster.Settings.Writer
import DepthRaster.Text.Blank
import DepthRaster.Text.Lowercase
import DepthRaster.Text.Printable
import DepthRaster.Text.Quoted
import DepthRaster.Text.Ranges
import DepthRaster.Toml.Atom
import DepthRaster.Toml.Document
import DepthRaster.Toml.Reserved
import DepthRaster.Toml.Text
import DepthRaster.Toml.Value
