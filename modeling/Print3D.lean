import Print3D.Drivers.Draining
import Print3D.Drivers.Capacity
import Print3D.Drivers.Checks
import Print3D.Drivers.Transmission
import Print3D.Drivers.Sending
import Print3D.Drivers.Dialogue
import Print3D.Drivers.Progress
import Print3D.Drivers.TemperatureReport
import Print3D.Drivers.S3GBounds
import Print3D.Drivers.SerialLines
import Print3D.Ipc.Addresses
import Print3D.Frontends.Transfer
import Print3D.Server.Client
import Print3D.Server.Cancellation
import Print3D.Server.Isolation
import Print3D.Server.ArgumentReads
import Print3D.Server.Truth
import Print3D.Drivers.Batches
import Print3D.Drivers.Fragments
import Print3D.Drivers.Connection
import Print3D.Frontends.Exchanges
import Print3D.Ipc.Stringify
import Print3D.Drivers.Checksum
import Print3D.Drivers.PacketSizes
import Print3D.Ipc.Devices
import Print3D.Server.Descriptors
import Print3D.Server.Daemon
import Print3D.Drivers.Polls
import Print3D.Drivers.Completion
import Print3D.Frontends.Actions
import Print3D.Server.Survival
