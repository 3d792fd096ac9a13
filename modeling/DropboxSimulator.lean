import DropboxSimulator.Server.Arrivals
import DropboxSimulator.Server.Replica
import DropboxSimulator.Server.Election
import DropboxSimulator.Box.Inotify
import DropboxSimulator.Client.Session
import DropboxSimulator.Server.Lookups
import DropboxSimulator.Server.Delivery
import DropboxSimulator.Server.FileReplication
import DropboxSimulator.Box.Notifications
import DropboxSimulator.Server.Descriptors
import DropboxSimulator.Client.Download
import DropboxSimulator.Server.Notices
import DropboxSimulator.Server.Enrolment
import DropboxSimulator.Server.Identity
import DropboxSimulator.Server.Occupancy
import DropboxSimulator.Server.Takeover
import DropboxSimulator.Server.Confinement
import DropboxSimulator.Server.Exits
import DropboxSimulator.Server.Requests
import DropboxSimulator.Server.ExitRecord
import DropboxSimulator.Server.Promotion
import DropboxSimulator.Client.SendFile
import DropboxSimulator.Box.EventLoop
import DropboxSimulator.Box.Instruction
import DropboxSimulator.Box.Prepare
import DropboxSimulator.Client.MissingFile
import DropboxSimulator.Box.CutOff
import DropboxSimulator.Server.Interrupted
import DropboxSimulator.Client.FileSize
import DropboxSimulator.Server.Configuration
import DropboxSimulator.Server.Capacities
import DropboxSimulator.Server.Progress
import DropboxSimulator.Server.Faultless
import DropboxSimulator.Server.Openings
import DropboxSimulator.Server.Broadcast
import DropboxSimulator.Box.Fleet
import DropboxSimulator.Box.FleetWire
import DropboxSimulator.Box.Console
import DropboxSimulator.Client.RoundTrip
import DropboxSimulator.Client.Behind
import DropboxSimulator.Box.Handshake
